import Lisplet.Proofs.Isolation.Values
import Lisplet.Proofs.Method.Reading

/-!
# Methods of texts, bytes and numbers

What these methods give are new texts, bytes and numbers, lists and tuples of them, or something that
they were given. So they are secure if they are called with confined values.
-/

namespace Lisplet

open Lisplet.Action

variable {n : Nat}

open Arguments

/-! ## Texts -/

namespace TextMethod

theorem ofChars_all (parts : List (List Char)) : AllConfined n (parts.map ofChars) :=
  .map fun _ _ => trivial

theorem listOf_secure (parts : List (List Char)) : Secure n (listOf parts) Value.Confined :=
  .newList (ofChars_all parts)

theorem tests_secure (name : String) (test : List Char → List Char → Bool) (cs : List Char)
    (args : List Value) : Secure n (tests name test cs args) Value.Confined := by
  unfold tests
  split
  · exact .raise _
  · refine (window_reads _ _).secure.seq fun bounds => ?_
    dsimp only
    split
    · exact (anyPasses_reads _ _ _).secure.seq fun _ => .ret trivial
    · exact (textOr_reads _ _).secure.seq fun _ => .ret trivial

theorem only_secure {args : List Value} (h : AllConfined n args) :
    Secure n (only args) Value.Confined := by
  unfold only
  split
  · exact .ret h.head
  · exact .raise _

/-- The part of a split after its arguments are taken apart. -/
theorem splitAt_secure (sep : Value) (atBlanks : List (List Char))
    (atSeparator : List Char → List (List Char)) :
    Secure n (match sep with
      | .nil => listOf atBlanks
      | v => do
        let sep ← separator v ("must be str or None, not " ++ v.typeName)
        listOf (atSeparator sep)) Value.Confined := by
  split
  · exact listOf_secure _
  · exact (separator_reads _ _).secure.seq fun _ => listOf_secure _

theorem splitBy_secure (atBlanks : Option Nat → List Char → List (List Char))
    (atSeparator : List Char → Option Nat → List Char → List (List Char)) (cs : List Char)
    (args : List Value) : Secure n (splitBy atBlanks atSeparator cs args) Value.Confined := by
  unfold splitBy
  dsimp only
  split
  · exact (Secure.retAny _).seq fun _ => splitAt_secure _ _ _
  · exact (Secure.retAny _).seq fun _ => splitAt_secure _ _ _
  · exact (limit_reads _).secure.seq fun _ => (Secure.retAny _).seq fun _ => splitAt_secure _ _ _

theorem partitioned_secure (cut : List Char → List Char → Option (List Char × List Char))
    (otherwise : List (List Char)) (cs : List Char) {args : List Value} (h : AllConfined n args) :
    Secure n (partitioned cut otherwise cs args) Value.Confined := by
  refine (only_secure h).seq fun v => (separator_reads _ _).secure.seq fun sep => ?_
  split
  · exact .newTuple (ofChars_all [_, _, _])
  · exact .newTuple (ofChars_all _)

theorem parts_secure (items : List (Value × Nat)) : Secure n (items.mapM fun (v, i) =>
    match v.text? with
    | some s => pure s.toList
    | none => Arguments.refused
        ("sequence item " ++ toString i ++ ": expected str instance, " ++ v.typeName
          ++ " found")) Any := by
  refine (Secure.mapM (Q := Any) (fun item => ?_) items).any
  dsimp only
  split
  · exact .retAny _
  · exact .raise _

theorem joinAll_secure (sep : List Char) {args : List Value} (h : AllConfined n args) :
    Secure n (joinAll sep args) Value.Confined := by
  unfold joinAll
  refine (only_secure h).bind fun m _ v hv => ?_
  dsimp only
  generalize (v.isIterable || _) = hasElements
  split
  · exact (Secure.elements hv).seq fun _ => (parts_secure _).seq fun _ => .ret trivial
  · refine Secure.seq (Q := Any) (refused_reads _).secure fun _ => ?_
    exact (parts_secure _).seq fun _ => .ret trivial

theorem replace_secure (cs : List Char) (args : List Value) :
    Secure n (call .replace cs args) Value.Confined := by
  refine (Arity.check_reads _ _).secure.seq fun _ => ?_
  dsimp only
  split
  · refine (argument_reads _ _).secure.seq fun old => (argument_reads _ _).secure.seq fun new => ?_
    split
    · exact .ret trivial
    · exact (limit_reads _).secure.seq fun _ => .ret trivial
  · exact .raise _

theorem call_secure (m : TextMethod) (cs : List Char) {args : List Value} (h : AllConfined n args) :
    Secure n (m.call cs args) Value.Confined := by
  by_cases hreplace : m = .replace
  · subst hreplace
    exact replace_secure cs args
  refine (Arity.check_reads _ _).secure.seq fun _ => ?_
  cases m with
  | replace => contradiction
  | capitalize | casefold | lower | upper | title | swapcase | isalnum | isalpha | isdigit
  | isspace | islower | isupper => exact .ret trivial
  | center | ljust | rjust => exact (padding_reads _).secure.seq fun _ => .ret trivial
  | zfill => exact (only_secure h).seq fun _ => (padding_reads _).secure.seq fun _ => .ret trivial
  | count =>
    refine (target_reads _ _).secure.seq fun t => ?_
    dsimp only
    split <;> exact .ret trivial
  | find | rfind => exact (target_reads _ _).secure.seq fun _ => .ret trivial
  | index =>
    refine (target_reads _ _).secure.seq fun t => ?_
    split
    · exact .ret trivial
    · exact .raise _
  | startswith | endswith => exact tests_secure _ _ _ _
  | join => exact joinAll_secure _ h
  | strip | lstrip | rstrip => exact (trimSet_reads _ _).secure.seq fun _ => .ret trivial
  | partition | rpartition => exact partitioned_secure _ _ _ h
  | removePrefix | removeSuffix =>
    exact (only_secure h).seq fun _ => (argument_reads _ _).secure.seq fun _ => .ret trivial
  | split | rsplit => exact splitBy_secure _ _ _ _
  | splitlines =>
    dsimp only
    split
    · exact listOf_secure _
    · exact (switch_reads _).secure.seq fun _ => listOf_secure _

end TextMethod

/-! ## Numbers -/

namespace NumberMethod

theorem ratio_secure (num : Int) (den : Nat) : Secure n (ratio num den) Value.Confined :=
  .newTuple (.cons trivial (.cons trivial .nil))

theorem bytesOfInt_secure (i : Int) (args : List Value) :
    Secure n (bytesOfInt i args) Value.Confined := by
  have hrest : ∀ length : Int, Secure n (do
      let lowest ← isLowestFirst "to_bytes" args[1]?
      if length < 0 then .raise (.plain .value "length argument must be non-negative")
      else if 100000000 < length then .raise (.raised .memory [])
      else if i < 0 then .raise (.plain .overflow "can't convert negative int to unsigned")
      else if 8 * length < bitLengthOf i.toNat then
        .raise (.plain .overflow "int too big to convert")
      else
        let data := lowestFirst length.toNat i.toNat
        Action.newBytes (if lowest then data else data.reverse)) Value.Confined := by
    intro length
    refine (isLowestFirst_reads _ _).secure.seq fun lowest => ?_
    split
    · exact .raise _
    · split
      · exact .raise _
      · split
        · exact .raise _
        · split
          · exact .raise _
          · exact .newBytes _
  refine (checkBytesArity_reads _ _).secure.seq fun _ => ?_
  dsimp only
  split
  · exact hrest _
  · exact (size_reads _).secure.seq fun _ => hrest _

theorem bytesIn_secure {v : Value} (hv : v.Confined n) : Secure n (bytesIn v) Any := by
  unfold bytesIn
  dsimp only
  split
  · exact .retAny _
  · exact (Secure.elements hv).seq fun _ => (bytesOf_reads _).secure
  · exact .raise _

theorem intOfBytes_secure {args : List Value} (h : AllConfined n args) :
    Secure n (intOfBytes args) Any := by
  refine (checkBytesArity_reads _ _).secure.seq fun _ => ?_
  split
  · exact .raise _
  · exact (isLowestFirst_reads _ _).secure.seq fun _ =>
      (bytesIn_secure h.head).seq fun _ => .retAny _

theorem ofHexText_secure (args : List Value) : Secure n (ofHexText args) Value.Confined := by
  refine (Arity.check_reads _ _).secure.seq fun _ => ?_
  split
  · exact .raise _
  · split
    · exact .newFloat _
    · exact .raise _
    · exact .raise _

theorem callInt_secure (m : NumberMethod) (typeName : String) (i : Int) {args : List Value}
    (h : AllConfined n args) : Secure n (m.callInt typeName i args) Value.Confined := by
  cases m with
  | fromBytes => exact (intOfBytes_secure h).seq fun _ => .ret trivial
  | toBytes => exact bytesOfInt_secure i args
  | integerRatio => exact (Arity.check_reads _ _).secure.seq fun _ => ratio_secure _ _
  | _ => exact (Arity.check_reads _ _).secure.seq fun _ => .ret trivial

theorem callBool_secure (m : NumberMethod) (b : Bool) {args : List Value} (h : AllConfined n args) :
    Secure n (m.callBool b args) Value.Confined := by
  unfold callBool
  split
  · exact (intOfBytes_secure h).seq fun _ => .ret trivial
  · exact callInt_secure _ _ _ h

theorem callDouble_secure (m : NumberMethod) (d : Double) (args : List Value) :
    Secure n (m.callDouble d args) Value.Confined := by
  cases m with
  | fromHex => exact ofHexText_secure args
  | integerRatio =>
    refine (Arity.check_reads _ _).secure.seq fun _ => ?_
    dsimp only
    split
    · exact ratio_secure _ _
    · exact .raise _
    · exact .raise _
  | _ => exact (Arity.check_reads _ _).secure.seq fun _ => .ret trivial

end NumberMethod

/-! ## Bytes -/

namespace BytesMethod

theorem requiredPlace_secure (place : Option Nat) :
    Secure n (requiredPlace place) Value.Confined := by
  cases place with
  | some i => exact .ret trivial
  | none => exact .raise _

theorem tests_secure (name : String) (test : List UInt8 → List UInt8 → Bool) (data : List UInt8)
    (args : List Value) : Secure n (tests name test data args) Value.Confined := by
  unfold tests
  split
  · exact .raise _
  · refine (window_reads _ _).secure.seq fun bounds => ?_
    dsimp only
    split
    · exact (anyPasses_reads _ _).secure.seq fun _ => .ret trivial
    · exact .ret trivial
    · exact .raise _

theorem joined_secure (data : List UInt8) {items : List Value} (hi : AllConfined n items) :
    Secure n (do
      let parts ← bytesAll 0 items
      match items with
      | [single] => return single
      | _ => Action.newBytes (Text.joined data parts)) Value.Confined := by
  refine (bytesAll_reads 0 items).secure.bind fun k hle parts _ => ?_
  split
  · exact .ret (hi.head.mono hle)
  · exact .newBytes _

theorem joinAll_secure (data : List UInt8) {v : Value} (hv : v.Confined n) :
    Secure n (joinAll data v) Value.Confined := by
  unfold joinAll
  dsimp only
  generalize (v.isIterable || _) = hasElements
  split
  · exact (Secure.elements hv).bind fun m _ items hi => joined_secure data hi
  · exact Secure.bind (Q := AllConfined) (.raise _) fun m _ items hi => joined_secure data hi

theorem hexText_secure (data : List UInt8) (args : List Value) :
    Secure n (hexText data args) Value.Confined := by
  have hrest : ∀ (sep : Value) (size : Int), Secure n (do
      let sep ← hexSeparator sep
      let width := size.natAbs
      if width == 0 then return .str (String.ofList (data.flatMap hexOf))
      else
        let odd := data.length % width
        let first := if 0 < size && odd != 0 then odd else width
        return .str (String.ofList (Text.joined [sep] (hexGroups width first data))))
      Value.Confined := by
    intro sep size
    refine (hexSeparator_reads sep).secure.seq fun c => ?_
    dsimp only
    split <;> exact .ret trivial
  unfold hexText
  dsimp only
  split
  · exact .ret trivial
  · split
    · exact hrest _ _
    · exact (ofBits_reads _ _ _).secure.seq fun _ => hrest _ _

theorem fromHex_secure (v : Value) : Secure n (fromHex v) Value.Confined := by
  unfold fromHex
  split
  · exact .raise _
  · split
    · exact .copiedBytes _
    · exact .raise _

theorem makeTable_secure (source image : Value) :
    Secure n (makeTable source image) Value.Confined := by
  refine (bytes_reads _).secure.seq fun source => (bytes_reads _).secure.seq fun image => ?_
  split
  · exact .raise _
  · exact .newBytes _

theorem decodedBy_secure (receiver : Value) (data : List UInt8) (encoding remedy : String)
    (found : Option Text.Encoding) :
    Secure n (do
      if data.isEmpty then return .str ""
      else
        match found with
        | none => .raise (.plain (.other "LookupError") ("unknown encoding: " ++ encoding))
        | some e =>
          let (name, pieces) := e.pieces data
          return .str (String.ofList (← mended name receiver remedy pieces))) Value.Confined := by
  split
  · exact .ret trivial
  · split
    · exact .raise _
    · exact (mended_reads _ _ _ _).secure.seq fun _ => .ret trivial

theorem decoded_secure (receiver : Value) (data : List UInt8) (args : List Value) :
    Secure n (decoded receiver data args) Value.Confined := by
  have hrest := decodedBy_secure (n := n) receiver data
  unfold decoded
  dsimp only
  split
  · -- a name that is known would be looked up right here
    rw [pure_bind]
    generalize Text.Encoding.ofName? "utf-8" = found
    split
    · exact hrest _ _ found
    · exact (textNamed_reads _ _ _).secure.seq fun _ => hrest _ _ found
  · refine (textNamed_reads _ _ _).secure.seq fun encoding => ?_
    generalize Text.Encoding.ofName? encoding = found
    split
    · exact hrest _ _ found
    · exact (textNamed_reads _ _ _).secure.seq fun _ => hrest _ _ found

section Results

variable {receiver : Value} (h : receiver.Confined n) (data : List UInt8)

include h

theorem keptOr_secure (result : List UInt8) :
    Secure n (keptOr receiver data result) Value.Confined := by
  unfold keptOr
  split
  · exact .ret h
  · exact .copiedBytes _

theorem keptOrNew_secure (result : List UInt8) :
    Secure n (keptOrNew receiver data result) Value.Confined := by
  unfold keptOrNew
  split
  · exact .ret h
  · exact .newBytes _

theorem keptOrAll_secure (parts : List (List UInt8)) :
    Secure n (keptOrAll receiver data parts) AllConfined := by
  induction parts with
  | nil => exact .ret .nil
  | cons part rest ih =>
    exact (keptOr_secure h data part).bind fun m hle here hhere =>
      (ih.mono hle).bind fun k hle' others hothers => .ret (.cons (hhere.mono hle') hothers)

theorem listOf_secure (parts : List (List UInt8)) :
    Secure n (listOf receiver data parts) Value.Confined :=
  (keptOrAll_secure h data parts).bind fun _ _ _ hall => .newList hall

/-- The part of a split after its arguments are taken apart. -/
theorem splitAt_secure (sep : Value) (limit : Option Nat)
    (atBlanks : Option Nat → List UInt8 → List (List UInt8))
    (atSeparator : List UInt8 → Option Nat → List UInt8 → List (List UInt8)) :
    Secure n (match sep, limit with
      | .nil, some 0 => do Action.newList (← (atBlanks limit data).mapM Action.copiedBytes).toArray
      | .nil, limit => listOf receiver data (atBlanks limit data)
      | v, limit => do listOf receiver data (atSeparator (← separator v) limit data))
      Value.Confined := by
  split
  · exact (Secure.mapM Secure.copiedBytes _).bind fun _ _ _ hall => .newList hall
  · exact listOf_secure h data _
  · exact (separator_reads _).secure.seq fun _ => listOf_secure h data _

theorem splitBy_secure (atBlanks : Option Nat → List UInt8 → List (List UInt8))
    (atSeparator : List UInt8 → Option Nat → List UInt8 → List (List UInt8)) (args : List Value) :
    Secure n (splitBy atBlanks atSeparator receiver data args) Value.Confined := by
  unfold splitBy
  dsimp only
  split
  · exact (Secure.retAny _).seq fun _ => splitAt_secure h data _ _ _ _
  · exact (Secure.retAny _).seq fun _ => splitAt_secure h data _ _ _ _
  · exact (limit_reads _).secure.seq fun _ => (Secure.retAny _).seq fun _ =>
      splitAt_secure h data _ _ _ _

theorem partitioned_secure (cut : List UInt8 → List UInt8 → Option (List UInt8 × List UInt8))
    (atEnd : Bool) {v : Value} (hv : v.Confined n) :
    Secure n (partitioned cut atEnd receiver data v) Value.Confined := by
  have hempty : (Value.bytes 0 []).Confined n := trivial
  refine (separator_reads v).secure.bind fun m hle sep _ => ?_
  split
  · refine (Secure.copiedBytes _).bind fun k hle' before hbefore => ?_
    refine (Secure.copiedBytes _).bind fun l hle'' after hafter => ?_
    have hv' := ((hv.mono hle).mono hle').mono hle''
    exact .newTuple (.cons (hbefore.mono hle'') (.cons hv' (.cons hafter .nil)))
  · refine .newTuple (AllConfined.mono ?_ hle)
    split
    · exact .cons hempty (.cons hempty (.cons h .nil))
    · exact .cons h (.cons hempty (.cons hempty .nil))

theorem translatedBy_secure (table : List UInt8) (dropped : Option Value) :
    Secure n (do
      if table.length != 256 then
        .raise (.plain .value "translation table must be 256 characters long")
      else
        let dropped ← match dropped with
          | none => pure []
          | some v => bytes v
        let kept := data.filter fun b => !dropped.contains b
        keptOrNew receiver data (kept.map fun b => table.getD b.toNat b)) Value.Confined := by
  dsimp only
  split
  · exact .raise _
  · split
    · exact keptOrNew_secure h data _
    · exact (bytes_reads _).secure.seq fun _ => keptOrNew_secure h data _

theorem translated_secure (table : Value) (dropped : Option Value) :
    Secure n (translated receiver data table dropped) Value.Confined := by
  have hrest := fun table => translatedBy_secure h data table dropped
  unfold translated
  dsimp only
  split
  · generalize tableOf [] [] = table
    exact hrest table
  · exact (bytes_reads _).secure.seq fun _ => hrest _

theorem replace_secure (args : List Value) :
    Secure n (call .replace receiver data args) Value.Confined := by
  have hrest : ∀ (old new : List UInt8) (limit : Option Nat), Secure n (do
      if limit == some 0 || old.isEmpty && new.isEmpty || (Text.find? old data).isNone then
        return receiver
      else Action.newBytes (Text.replace old new limit data)) Value.Confined := by
    intro old new limit
    split
    · exact .ret h
    · exact .newBytes _
  refine (Arity.check_reads _ _).secure.seq fun _ => ?_
  refine (bytes_reads _).secure.seq fun old => (bytes_reads _).secure.seq fun new => ?_
  dsimp only
  split
  · exact hrest _ _ _
  · exact (limit_reads _).secure.seq fun _ => hrest _ _ _

theorem call_secure (m : BytesMethod) {args : List Value} (hargs : AllConfined n args) :
    Secure n (m.call receiver data args) Value.Confined := by
  have hfirst : (args.getD 0 .nil).Confined n := hargs.getD 0 trivial
  by_cases hreplace : m = .replace
  · subst hreplace
    exact replace_secure h data args
  refine (Arity.check_reads _ _).secure.seq fun _ => ?_
  cases m with
  | replace => contradiction
  | capitalize | lower | upper | swapcase | title => exact .newBytes _
  | isalnum | isalpha | isascii | isdigit | isspace | islower | isupper | istitle =>
    exact .ret trivial
  | center | ljust | rjust | zfill =>
    exact (padding_reads _ _).secure.seq fun _ => keptOrNew_secure h data _
  | expandtabs =>
    dsimp only
    split
    · exact .newBytes _
    · exact (ofBits_reads _ _ _).secure.seq fun _ => .newBytes _
  | count =>
    refine (target_reads _ _).secure.seq fun t => ?_
    dsimp only
    split <;> exact .ret trivial
  | find | rfind => exact (locate_reads _ _ _).secure.seq fun _ => .ret trivial
  | index | rindex => exact (locate_reads _ _ _).secure.seq fun _ => requiredPlace_secure _
  | startswith | endswith => exact tests_secure _ _ _ _
  | join => exact joinAll_secure data hfirst
  | strip | lstrip | rstrip => exact (trimSet_reads _).secure.seq fun _ => keptOr_secure h data _
  | partition | rpartition => exact partitioned_secure h data _ _ hfirst
  | removePrefix | removeSuffix => exact (bytes_reads _).secure.seq fun _ => keptOr_secure h data _
  | split | rsplit => exact splitBy_secure h data _ _ _
  | splitlines =>
    dsimp only
    split
    · exact listOf_secure h data _
    · exact (switch_reads _).secure.seq fun _ => listOf_secure h data _
  | hex => exact hexText_secure data args
  | fromhex => exact fromHex_secure _
  | decode => exact decoded_secure receiver data args
  | maketrans => exact makeTable_secure _ _
  | translate => exact translated_secure h data _ _

end Results

end BytesMethod

end Lisplet
