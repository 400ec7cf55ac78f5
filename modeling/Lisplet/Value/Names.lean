import Lisplet.Value.Basic

/-!
# Names of methods

The names under which scripts find the methods of sequences, texts, bytes, lists, tuples, sets,
numbers and scopes, and the names of attributes that they may not use.
-/

namespace Lisplet

/-- The attributes that every value has and that scripts may not use. -/
def commonAttributes : List String :=
  ["__class__", "__delattr__", "__dir__", "__doc__", "__eq__", "__format__", "__ge__",
   "__getattribute__", "__getstate__", "__gt__", "__hash__", "__init__", "__init_subclass__",
   "__le__", "__lt__", "__ne__", "__new__", "__reduce__", "__reduce_ex__", "__repr__",
   "__setattr__", "__sizeof__", "__str__", "__subclasshook__"]

namespace SequenceMethod

/-- The methods with their names. -/
def table : List (String × SequenceMethod) :=
  [("map", .map), ("filter", .filter), ("reduce", .reduce), ("forEach", .forEach), ("find", .find),
   ("some", .some), ("every", .every), ("slice", .slice), ("concat", .concat), ("join", .join),
   ("includes", .includes), ("indexOf", .indexOf), ("push", .push)]

/-- The method that has a name. -/
def ofName? (name : String) : Option SequenceMethod := table.lookup name

end SequenceMethod

namespace TextMethod

/-- The methods with their names. -/
def table : List (String × TextMethod) :=
  [("capitalize", .capitalize), ("casefold", .casefold), ("center", .center), ("count", .count),
   ("endswith", .endswith), ("find", .find), ("index", .index), ("isalnum", .isalnum),
   ("isalpha", .isalpha), ("isdigit", .isdigit), ("islower", .islower), ("isspace", .isspace),
   ("isupper", .isupper), ("join", .join), ("ljust", .ljust), ("lower", .lower),
   ("lstrip", .lstrip), ("partition", .partition), ("removeprefix", .removePrefix),
   ("removesuffix", .removeSuffix), ("replace", .replace), ("rfind", .rfind), ("rjust", .rjust),
   ("rpartition", .rpartition), ("rsplit", .rsplit), ("rstrip", .rstrip), ("split", .split),
   ("splitlines", .splitlines), ("startswith", .startswith), ("strip", .strip),
   ("swapcase", .swapcase), ("title", .title), ("upper", .upper), ("zfill", .zfill)]

/-- The method that has a name. -/
def ofName? (name : String) : Option TextMethod := table.lookup name

/-- The further attributes of texts, which scripts may not use. -/
def withheld : List String :=
  ["encode", "expandtabs", "format", "format_map", "isascii", "isdecimal", "isidentifier",
   "isnumeric", "isprintable", "istitle", "maketrans", "rindex", "translate", "__add__",
   "__contains__", "__getitem__", "__getnewargs__", "__iter__", "__len__", "__mod__", "__mul__",
   "__rmod__", "__rmul__"]

/-- The attributes that a kind of node has beyond those of its name. -/
def withheldOfKind : List String :=
  ["name", "value", "_name_", "_value_", "_sort_order_", "_generate_next_value_", "_missing_",
   "_member_map_", "_member_names_", "_value2member_map_", "_member_type_", "_new_member_",
   "_use_args_", "_unhashable_values_", "_value_repr_", "ROOT", "SEXPR", "STRING", "NUMBER", "KEY",
   "IDENT", "KEYWORD", "ARRAY", "OBJECT", "REST", "JS"]

end TextMethod

namespace ListMethod

/-- The methods with their names. -/
def table : List (String × ListMethod) :=
  [("append", .append), ("clear", .clear), ("copy", .copy), ("count", .count), ("extend", .extend),
   ("index", .index), ("insert", .insert), ("pop", .pop), ("remove", .remove),
   ("reverse", .reverse), ("sort", .sort)]

/-- The method that has a name. -/
def ofName? (name : String) : Option ListMethod := table.lookup name

end ListMethod

namespace TupleMethod

/-- The method that has a name. -/
def ofName? : String → Option TupleMethod
  | "count" => some .count
  | "index" => some .index
  | _ => none

end TupleMethod

namespace NumberMethod

/-- The method of integers that has a name. -/
def ofIntName? : String → Option NumberMethod
  | "as_integer_ratio" => some .integerRatio
  | "bit_count" => some .bitCount
  | "bit_length" => some .bitLength
  | "conjugate" => some .conjugate
  | "from_bytes" => some .fromBytes
  | "to_bytes" => some .toBytes
  | _ => none

/-- The method of doubles that has a name. -/
def ofDoubleName? : String → Option NumberMethod
  | "as_integer_ratio" => some .integerRatio
  | "conjugate" => some .conjugate
  | "fromhex" => some .fromHex
  | "hex" => some .hex
  | "is_integer" => some .isInteger
  | _ => none

end NumberMethod

namespace BytesMethod

/-- The methods with their names. -/
def table : List (String × BytesMethod) :=
  [("capitalize", .capitalize), ("center", .center), ("count", .count), ("decode", .decode),
   ("endswith", .endswith), ("expandtabs", .expandtabs), ("find", .find), ("fromhex", .fromhex),
   ("hex", .hex), ("index", .index), ("isalnum", .isalnum), ("isalpha", .isalpha),
   ("isascii", .isascii), ("isdigit", .isdigit), ("islower", .islower), ("isspace", .isspace),
   ("istitle", .istitle), ("isupper", .isupper), ("join", .join), ("ljust", .ljust),
   ("lower", .lower), ("lstrip", .lstrip), ("maketrans", .maketrans), ("partition", .partition),
   ("removeprefix", .removePrefix), ("removesuffix", .removeSuffix), ("replace", .replace),
   ("rfind", .rfind), ("rindex", .rindex), ("rjust", .rjust), ("rpartition", .rpartition),
   ("rsplit", .rsplit), ("rstrip", .rstrip), ("split", .split), ("splitlines", .splitlines),
   ("startswith", .startswith), ("strip", .strip), ("swapcase", .swapcase), ("title", .title),
   ("translate", .translate), ("upper", .upper), ("zfill", .zfill)]

/-- The method that has a name. -/
def ofName? (name : String) : Option BytesMethod := table.lookup name

end BytesMethod

namespace SetMethod

/-- The methods with their names. -/
def table : List (String × SetMethod) :=
  [("copy", .copy), ("difference", .difference), ("intersection", .intersection),
   ("isdisjoint", .isDisjoint), ("issubset", .isSubset), ("issuperset", .isSuperset),
   ("symmetric_difference", .symmetricDifference), ("union", .union)]

/-- The method that has a name. -/
def ofName? (name : String) : Option SetMethod := table.lookup name

end SetMethod

namespace ScopeMethod

/-- The method that has a name. -/
def ofName? : String → Option ScopeMethod
  | "is_defined" => some .isDefined
  | "is_read_only" => some .isReadOnly
  | "get_var" => some .getVar
  | "get" => some .get
  | "set" => some .set
  | "_write_vars" => some .writeVars
  | _ => none

end ScopeMethod

/-! ## Attributes that only the host uses -/

/-- The attributes of dictionaries. -/
def dictAttributes : List String :=
  ["clear", "copy", "fromkeys", "get", "items", "keys", "pop", "popitem", "setdefault", "update",
   "values"]

/-- The attributes that a value has besides its slots and methods. -/
def Value.hiddenAttributes : Value → List String
  | .str _ => TextMethod.withheld
  | .kind _ => TextMethod.withheld ++ TextMethod.withheldOfKind
  | .dict _ => dictAttributes
  | _ => []

end Lisplet
