import Lisplet.CommandLine.Run
import Lisplet.Proofs.Errors.Reports

/-!
# How the program ends

The program ends with code 0 if the source that it is given can be read, parsed and run, and with
code 1 and a message if not. It ends with an error of its own where one step has no message for what
it meets: a path with a null character, bytes that are not UTF-8, a value that is to be printed and
has no text, and an error of the script on which no report can be composed.

`Yields` lists everything that can happen, with the result that it has. Main statement: `run_spec`.
-/

namespace Lisplet.CommandLine

/-! ## What can happen -/

/-- The bytes that are to be run. -/
inductive Holds (d : Directory) (stdin : StandardInput) : (file : String) → ByteArray → Prop
  | stdin : Holds d stdin "-" stdin.bytes
  | file {file : String} {content : ByteArray} (hfile : file ≠ "-") (hpath : '\x00' ∉ file.toList)
    (hread : d.read (.ofText file) = .ok content) : Holds d stdin file content

/-- The source that is to be run. -/
def Loads (d : Directory) (stdin : StandardInput) (file source : String) : Prop :=
  ∃ content, Holds d stdin file content ∧ decode content = some source

/-- The file cannot be read. -/
def Unreadable (d : Directory) (file : String) (fault : ReadFault) : Prop :=
  file ≠ "-" ∧ '\x00' ∉ file.toList ∧ d.read (.ofText file) = .error fault

/-- The path has a character that no path can have. -/
def HasBadPath (file : String) : Prop := file ≠ "-" ∧ '\x00' ∈ file.toList

/-- The bytes that are to be run are no text. -/
def Undecodable (d : Directory) (stdin : StandardInput) (file : String) : Prop :=
  ∃ content, Holds d stdin file content ∧ decode content = none

/-- The script in which the program runs a source. -/
def mainScript : Script := ⟨⟨1⟩, false⟩

/-- The store with that script. -/
def mainStore (env : Environment) : Store :=
  ((Store.initial (Settings.denylist env)).addScope [] (.scope coreScope)).2

/-- The source is no program. -/
def Malformed (env : Environment) (source : String) (e : SyntaxError) : Prop :=
  (Reader.parse (mainStore env).nextId source : Except SyntaxError (Program Value)) = .error e

/-- The source is a program, and its run ends in this way. -/
def EndsWith (env : Environment) (source : String) (p : Program Value) (o : Outcome Value) : Prop :=
  ∃ s, Script.read source (mainStore env) = .done p s ∧ mainScript.evaluate p s = o

/-- What is logged while a source is run. -/
def runLog (least : Nat) (p : Program Value) : String :=
  logText least [parsedLine p, executingLine p]

/-- What the program can meet, and the result that it has then. -/
inductive Yields (env : Environment) (least : Nat) (printResult : Bool) (d : Directory)
    (stdin : StandardInput) (file : String) : Result → Prop
  | badPath (h : HasBadPath file) : Yields env least printResult d stdin file (.crash badPath)
  | undecodable (h : Undecodable d stdin file) :
    Yields env least printResult d stdin file (.crash undecodable)
  | unreadable {fault : ReadFault} (h : Unreadable d file fault) :
    Yields env least printResult d stdin file
      (.complaint (fault.report (Path.ofText file).text) 1)
  | malformed {source : String} {e : SyntaxError} (hload : Loads d stdin file source)
    (hparse : Malformed env source e) :
    Yields env least printResult d stdin file
      ⟨"", "SyntaxError: " ++ e.message ++ "\n", .ok 1⟩
  | failed {source report : String} {p : Program Value} {e f : Failure} {t : Store}
    (hload : Loads d stdin file source) (hrun : EndsWith env source p (.failed e t))
    (hreport : e.attach t = .ok (report, f)) :
    Yields env least printResult d stdin file
      ⟨t.output, logText least [parsedLine p, executingLine p, failedLine report] ++ f.kind.name ++
        ": " ++ report ++ "\n", .ok 1⟩
  | unreported {source : String} {p : Program Value} {e : Failure} {fault : Fault} {t : Store}
    (hload : Loads d stdin file source) (hrun : EndsWith env source p (.failed e t))
    (hreport : e.attach t = .error fault) :
    Yields env least printResult d stdin file
      ⟨t.output, runLog least p, .error (fault.text, .fresh fault)⟩
  | finished {source : String} {p : Program Value} {v : Value} {t : Store}
    (hload : Loads d stdin file source) (hrun : EndsWith env source p (.done v t))
    (hsilent : (printResult && !v.isNullish) = false) :
    Yields env least printResult d stdin file ⟨t.output, runLog least p, .ok 0⟩
  | printed {source text : String} {p : Program Value} {v : Value} {t : Store}
    (hload : Loads d stdin file source) (hrun : EndsWith env source p (.done v t))
    (hprint : (printResult && !v.isNullish) = true) (htext : t.plain v = .ok text) :
    Yields env least printResult d stdin file ⟨t.output ++ text ++ "\n", runLog least p, .ok 0⟩
  | unprintable {source : String} {p : Program Value} {v : Value} {fault : Fault} {t : Store}
    (hload : Loads d stdin file source) (hrun : EndsWith env source p (.done v t))
    (hprint : (printResult && !v.isNullish) = true) (htext : t.plain v = .error fault) :
    Yields env least printResult d stdin file
      ⟨t.output, runLog least p, .error (fault.text, .fresh fault)⟩
  | exhausted {source : String} {p : Program Value} (hload : Loads d stdin file source)
    (hrun : EndsWith env source p .exhausted) :
    Yields env least printResult d stdin file ⟨(mainStore env).output, runLog least p, .ok 1⟩

variable {env : Environment} {least : Nat} {printResult : Bool} {d : Directory}
  {stdin : StandardInput} {file source : String} {p : Program Value} {t : Store}

/-! ## Runs of a source -/

theorem create_mainScript (env : Environment) :
    Script.create [] false (Store.initial (Settings.denylist env)) =
      .done mainScript (mainStore env) :=
  rfl

theorem keep_output (s : Store) (f : Failure) : (s.keep f).output = s.output := by
  unfold Store.keep
  split <;> rfl

/-- A source that is a program is logged, and then it is run. -/
theorem exec_of_endsWith {o : Outcome Value} (h : EndsWith env source p o) :
    ∃ s, Script.read source (mainStore env) = .done p s ∧ s.output = (mainStore env).output ∧
      mainScript.evaluate p s = o ∧
      mainScript.exec source (mainStore env) = s.attempt false (mainScript.evaluate p) := by
  obtain ⟨s, hread, hrun⟩ := h
  have hattempt : (mainStore env).attempt true (Script.read source) = (.value p, s) := by
    unfold Store.attempt
    rw [hread]
  have houtput : s.output = (mainStore env).output := by
    unfold Script.read at hread
    split at hread
    · cases hread
      rfl
    · cases hread
  refine ⟨s, hread, houtput, hrun, ?_⟩
  unfold Script.exec Script.execIn
  rw [hattempt]
  rfl

theorem runSource_malformed {e : SyntaxError} (h : Malformed env source e) :
    runSource env least printResult source = ⟨"", "SyntaxError: " ++ e.message ++ "\n", .ok 1⟩ := by
  have hread : Script.read source (mainStore env) =
      .failed (.fresh (.malformed e)) (mainStore env) := by
    unfold Script.read
    rw [h]
  have hexec : mainScript.exec source (mainStore env) =
      (.raised e.message (.fresh (.malformed e)), mainStore env) := by
    unfold Script.exec Script.execIn Store.attempt
    rw [hread]
    rfl
  have hkind : (Failure.fresh (.malformed e)).kind.isLanguage = true := by cases e <;> rfl
  have hlog : logText least [] ++ "SyntaxError: " = "SyntaxError: " := String.empty_append
  unfold runSource
  dsimp only
  rw [create_mainScript]
  dsimp only
  rw [hread, hexec]
  dsimp only
  rw [if_pos hkind, hlog]
  rfl

theorem runSource_done {v : Value} (h : EndsWith env source p (.done v t)) :
    runSource env least printResult source =
      if printResult && !v.isNullish then
        match t.plain v with
        | .ok text => ⟨t.output ++ text ++ "\n", runLog least p, .ok 0⟩
        | .error fault => ⟨t.output, runLog least p, .error (fault.text, .fresh fault)⟩
      else ⟨t.output, runLog least p, .ok 0⟩ := by
  obtain ⟨s, hread, -, hrun, hexec⟩ := exec_of_endsWith h
  unfold runSource
  dsimp only
  rw [create_mainScript]
  dsimp only
  rw [hread, hexec]
  unfold Store.attempt
  rw [hrun]
  rfl

theorem runSource_failed {e f : Failure} {report : String}
    (h : EndsWith env source p (.failed e t)) (hreport : e.attach t = .ok (report, f)) :
    runSource env least printResult source =
      ⟨t.output, logText least [parsedLine p, executingLine p, failedLine report] ++ f.kind.name ++
        ": " ++ report ++ "\n", .ok 1⟩ := by
  obtain ⟨s, hread, -, hrun, hexec⟩ := exec_of_endsWith h
  unfold runSource
  dsimp only
  rw [create_mainScript]
  dsimp only
  rw [hread, hexec]
  unfold Store.attempt Store.settle
  rw [hrun]
  dsimp only
  rw [hreport]
  dsimp only
  rw [if_neg Bool.false_ne_true]
  dsimp only
  rw [keep_output]
  rfl

/-- An error in composing a report is none of the language, so that nothing handles it. -/
theorem runSource_unreported {e : Failure} {fault : Fault}
    (h : EndsWith env source p (.failed e t)) (hreport : e.attach t = .error fault) :
    runSource env least printResult source =
      ⟨t.output, runLog least p, .error (fault.text, .fresh fault)⟩ := by
  have hkind : fault.kind.isLanguage = false := by
    have hamong := (e.attach_errors t fault hreport).1
    unfold Store.textErrors at hamong
    simp only [List.mem_cons, List.not_mem_nil, or_false] at hamong
    rcases hamong with hkind | hkind | hkind <;> rw [hkind] <;> rfl
  obtain ⟨s, hread, -, hrun, hexec⟩ := exec_of_endsWith h
  unfold runSource
  dsimp only
  rw [create_mainScript]
  dsimp only
  rw [hread, hexec]
  unfold Store.attempt Store.settle
  rw [hrun]
  dsimp only
  rw [hreport]
  dsimp only
  rw [keep_output]
  show (if fault.kind.isLanguage = true then _ else _) = _
  rw [hkind, if_neg Bool.false_ne_true]
  rfl

theorem runSource_exhausted (h : EndsWith env source p .exhausted) :
    runSource env least printResult source =
      ⟨(mainStore env).output, runLog least p, .ok 1⟩ := by
  obtain ⟨s, hread, houtput, hrun, hexec⟩ := exec_of_endsWith h
  unfold runSource
  dsimp only
  rw [create_mainScript]
  dsimp only
  rw [hread, hexec]
  unfold Store.attempt
  rw [hrun, ← houtput]
  rfl

/-! ## What does happen -/

theorem runFile_badPath (h : HasBadPath file) :
    runFile env least printResult d stdin file = .crash badPath := by
  unfold runFile
  rw [if_neg (by simpa using h.1), if_pos (by simpa using h.2)]

theorem runFile_of_path (hfile : file ≠ "-") (hpath : '\x00' ∉ file.toList) :
    runFile env least printResult d stdin file =
      match d.read (.ofText file) with
      | .ok content => runContent env least printResult content
      | .error fault => .complaint (fault.report (Path.ofText file).text) 1 := by
  unfold runFile
  exact (if_neg (by simpa using hfile)).trans (if_neg (by simpa using hpath))

theorem runFile_of_holds {content : ByteArray} (h : Holds d stdin file content) :
    runFile env least printResult d stdin file = runContent env least printResult content := by
  cases h with
  | stdin => rfl
  | file hfile hpath hread => rw [runFile_of_path hfile hpath, hread]

theorem runFile_of_loads (h : Loads d stdin file source) :
    runFile env least printResult d stdin file = runSource env least printResult source := by
  obtain ⟨content, hholds, hdecode⟩ := h
  rw [runFile_of_holds hholds]
  unfold runContent
  rw [hdecode]

theorem runFile_undecodable (h : Undecodable d stdin file) :
    runFile env least printResult d stdin file = .crash undecodable := by
  obtain ⟨content, hholds, hdecode⟩ := h
  rw [runFile_of_holds hholds]
  unfold runContent
  rw [hdecode]

/-- Something happens, whatever is to be run. -/
theorem runSource_yields (hload : Loads d stdin file source) :
    Yields env least printResult d stdin file (runSource env least printResult source) := by
  cases hparse : (Reader.parse (mainStore env).nextId source :
      Except SyntaxError (Program Value)) with
  | error e =>
    rw [runSource_malformed hparse]
    exact .malformed hload hparse
  | ok p =>
    have hends : ∀ o, mainScript.evaluate p { mainStore env with
        nextId := (mainStore env).nextId + Reader.identities source } = o →
        EndsWith env source p o := by
      intro o ho
      refine ⟨_, ?_, ho⟩
      unfold Script.read
      rw [hparse]
    cases hrun : mainScript.evaluate p { mainStore env with
        nextId := (mainStore env).nextId + Reader.identities source } with
    | done v t =>
      have hdone := hends _ hrun
      rw [runSource_done hdone]
      split
      · next hprint =>
        cases htext : t.plain v with
        | ok text => exact .printed hload hdone hprint htext
        | error fault => exact .unprintable hload hdone hprint htext
      · next hprint => exact .finished hload hdone (Bool.eq_false_iff.mpr hprint)
    | failed e t =>
      have hfailed := hends _ hrun
      cases hreport : e.attach t with
      | ok attached =>
        rw [runSource_failed hfailed hreport]
        exact .failed hload hfailed hreport
      | error fault =>
        rw [runSource_unreported hfailed hreport]
        exact .unreported hload hfailed hreport
    | exhausted =>
      have hexhausted := hends _ hrun
      rw [runSource_exhausted hexhausted]
      exact .exhausted hload hexhausted

theorem runFile_yields_of_holds {content : ByteArray} (h : Holds d stdin file content) :
    Yields env least printResult d stdin file (runFile env least printResult d stdin file) := by
  cases hdecode : decode content with
  | none =>
    have hundecodable : Undecodable d stdin file := ⟨content, h, hdecode⟩
    rw [runFile_undecodable hundecodable]
    exact .undecodable hundecodable
  | some source =>
    have hload : Loads d stdin file source := ⟨content, h, hdecode⟩
    rw [runFile_of_loads hload]
    exact runSource_yields hload

theorem runFile_yields :
    Yields env least printResult d stdin file (runFile env least printResult d stdin file) := by
  by_cases hfile : file = "-"
  · subst hfile
    exact runFile_yields_of_holds .stdin
  by_cases hpath : '\x00' ∈ file.toList
  · rw [runFile_badPath ⟨hfile, hpath⟩]
    exact .badPath ⟨hfile, hpath⟩
  cases hread : d.read (.ofText file) with
  | error fault =>
    rw [runFile_of_path hfile hpath, hread]
    exact .unreadable ⟨hfile, hpath, hread⟩
  | ok content => exact runFile_yields_of_holds (.file hfile hpath hread)

/-- What can happen happens. -/
theorem runFile_of_yields {r : Result} (h : Yields env least printResult d stdin file r) :
    runFile env least printResult d stdin file = r := by
  cases h with
  | badPath h => exact runFile_badPath h
  | undecodable h => exact runFile_undecodable h
  | unreadable h =>
    obtain ⟨hfile, hpath, hread⟩ := h
    rw [runFile_of_path hfile hpath, hread]
  | malformed hload hparse => rw [runFile_of_loads hload, runSource_malformed hparse]
  | failed hload hrun hreport => rw [runFile_of_loads hload, runSource_failed hrun hreport]
  | unreported hload hrun hreport => rw [runFile_of_loads hload, runSource_unreported hrun hreport]
  | finished hload hrun hsilent =>
    rw [runFile_of_loads hload, runSource_done hrun, hsilent, if_neg Bool.false_ne_true]
  | printed hload hrun hprint htext =>
    rw [runFile_of_loads hload, runSource_done hrun, if_pos hprint, htext]
  | unprintable hload hrun hprint htext =>
    rw [runFile_of_loads hload, runSource_done hrun, if_pos hprint, htext]
  | exhausted hload hrun => rw [runFile_of_loads hload, runSource_exhausted hrun]

/-! ## How the program ends -/

/-- The source can be read, parsed and run without an error, and what is to be printed has a
text. -/
def Succeeds (env : Environment) (printResult : Bool) (d : Directory) (stdin : StandardInput)
    (file : String) : Prop :=
  ∃ source p v t, Loads d stdin file source ∧ EndsWith env source p (.done v t) ∧
    ((printResult && !v.isNullish) = true → ∃ text, t.plain v = .ok text)

/-- The file cannot be read, its source is no program, or the run ends with an error. -/
def Fails (env : Environment) (d : Directory) (stdin : StandardInput) (file : String) : Prop :=
  (∃ fault, Unreadable d file fault) ∨
    ∃ source, Loads d stdin file source ∧
      ((∃ e, Malformed env source e) ∨
        ∃ p e t report f, EndsWith env source p (.failed e t) ∧ e.attach t = .ok (report, f))

/-- The path cannot be one, the bytes are no text, or a value or an error has no text. -/
def Crashes (env : Environment) (printResult : Bool) (d : Directory) (stdin : StandardInput)
    (file : String) : Prop :=
  HasBadPath file ∨ Undecodable d stdin file ∨
    ∃ source p, Loads d stdin file source ∧
      ((∃ v t fault, EndsWith env source p (.done v t) ∧ (printResult && !v.isNullish) = true ∧
          t.plain v = .error fault) ∨
        ∃ e t fault, EndsWith env source p (.failed e t) ∧ e.attach t = .error fault)

/-- The last line on the standard error is a message. -/
def Result.Tells (r : Result) : Prop :=
  ∃ logged message, message ≠ "" ∧ r.err = logged ++ message ++ "\n"

theorem exit_of_succeeds (h : Succeeds env printResult d stdin file) :
    (runFile env least printResult d stdin file).exit = .ok 0 := by
  obtain ⟨source, p, v, t, hload, hrun, htext⟩ := h
  by_cases hprint : (printResult && !v.isNullish) = true
  · obtain ⟨text, htext⟩ := htext hprint
    rw [runFile_of_yields (.printed hload hrun hprint htext)]
  · rw [runFile_of_yields (.finished hload hrun (Bool.eq_false_iff.mpr hprint))]

theorem exit_of_fails (h : Fails env d stdin file) :
    (runFile env least printResult d stdin file).exit = .ok 1 := by
  rcases h with ⟨fault, h⟩ | ⟨source, hload, ⟨e, hparse⟩ | ⟨p, e, t, report, f, hrun, hreport⟩⟩
  · rw [runFile_of_yields (.unreadable h)]
    rfl
  · rw [runFile_of_yields (.malformed hload hparse)]
  · rw [runFile_of_yields (.failed hload hrun hreport)]

theorem exit_of_crashes (h : Crashes env printResult d stdin file) :
    ∃ error, (runFile env least printResult d stdin file).exit = .error error := by
  rcases h with h | h | ⟨source, p, hload, ⟨v, t, fault, hrun, hprint, htext⟩ |
    ⟨e, t, fault, hrun, hreport⟩⟩
  · rw [runFile_of_yields (.badPath h)]
    exact ⟨_, rfl⟩
  · rw [runFile_of_yields (.undecodable h)]
    exact ⟨_, rfl⟩
  · rw [runFile_of_yields (.unprintable hload hrun hprint htext)]
    exact ⟨_, rfl⟩
  · rw [runFile_of_yields (.unreported hload hrun hreport)]
    exact ⟨_, rfl⟩

/-- Every result but that of a run that does not end is one of the three. -/
theorem Yields.ending {r : Result} (h : Yields env least printResult d stdin file r)
    (hends : ∀ source p, Loads d stdin file source → ¬ EndsWith env source p .exhausted) :
    r.exit = .ok 0 ∧ Succeeds env printResult d stdin file ∨
      r.exit = .ok 1 ∧ r.Tells ∧ Fails env d stdin file ∨
      (∃ error, r.exit = .error error) ∧ Crashes env printResult d stdin file := by
  cases h with
  | badPath h => exact .inr (.inr ⟨⟨_, rfl⟩, .inl h⟩)
  | undecodable h => exact .inr (.inr ⟨⟨_, rfl⟩, .inr (.inl h)⟩)
  | @unreadable fault h =>
    refine .inr (.inl ⟨rfl, ⟨"", "Error reading file: " ++ fault.name ++ ": " ++
      Text.quoted (Path.ofText file).text, by simp, ?_⟩, .inl ⟨fault, h⟩⟩)
    rw [String.empty_append]
    rfl
  | @malformed source e hload hparse =>
    refine .inr (.inl ⟨rfl, ⟨"", "SyntaxError: " ++ e.message, by simp, ?_⟩,
      .inr ⟨source, hload, .inl ⟨e, hparse⟩⟩⟩)
    rw [String.empty_append]
  | @failed source report p e f t hload hrun hreport =>
    refine .inr (.inl ⟨rfl,
      ⟨logText least [parsedLine p, executingLine p, failedLine report],
        f.kind.name ++ (": " ++ report), by simp, ?_⟩,
      .inr ⟨source, hload, .inr ⟨p, e, t, report, f, hrun, hreport⟩⟩⟩)
    simp only [String.append_assoc]
  | @unreported source p e fault t hload hrun hreport =>
    exact .inr (.inr ⟨⟨_, rfl⟩, .inr (.inr ⟨source, p, hload, .inr ⟨e, t, fault, hrun, hreport⟩⟩)⟩)
  | @finished source p v t hload hrun hsilent =>
    refine .inl ⟨rfl, source, p, v, t, hload, hrun, fun hprint => ?_⟩
    cases hsilent.symm.trans hprint
  | @printed source text p v t hload hrun hprint htext =>
    exact .inl ⟨rfl, source, p, v, t, hload, hrun, fun _ => ⟨text, htext⟩⟩
  | @unprintable source p v fault t hload hrun hprint htext =>
    exact .inr (.inr ⟨⟨_, rfl⟩, .inr (.inr ⟨source, p, hload,
      .inl ⟨v, t, fault, hrun, hprint, htext⟩⟩)⟩)
  | exhausted hload hrun => exact absurd hrun (hends _ _ hload)

theorem run_eq_runFile {arguments : List String}
    (hparse : parse arguments = .ok (.run file printResult)) (hlevel : threshold env = .ok least) :
    run env d stdin arguments = runFile env least printResult d stdin file := by
  unfold run
  rw [hparse]
  dsimp only
  rw [hlevel]

end Lisplet.CommandLine
