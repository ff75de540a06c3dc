import SyncForge.Model.Event

/-!
# `Model.Json` — decoded JSON documents

What `encoding/json` makes of a text: into `any`, and into the fields of a struct. Members keep the order of
the text, because a later member with the same key overwrites an earlier one. A number, a list and an object
also carry the two ways they are printed (`fmt.Sprint` and `json.Marshal`), as `Any.other` does.
-/

namespace SyncForge

inductive Json where
  | null
  | bool (b : Bool)
  /-- `int` is the number when it fits an `int64`. -/
  | num (int : Option Int) (sprint json : String)
  | str (s : String)
  | arr (sprint json : String)
  | obj (members : List (String × Json)) (sprint json : String)

abbrev JsonMap := List (String × Json)

namespace Json

def toAny : Json → Any
  | .null => .nil
  | .bool b => .bool b
  | .str s => .str s
  | .num _ sprint json => .other sprint json
  | .arr sprint json => .other sprint json
  | .obj _ sprint json => .other sprint json

/-- `v.(map[string]any)`. -/
def asMap : Json → Option JsonMap
  | .obj members _ _ => some members
  | _ => none

def asString : Json → Option String
  | .str s => some s
  | _ => none

end Json

namespace JsonMap

/-- `m[key]`: the last member with this key. -/
def get? (m : JsonMap) (key : String) : Option Json := (m.reverse.find? (fun kv => kv.1 = key)).map Prod.snd

def toData (m : JsonMap) : Data := m.foldl (fun d kv => d.insert kv.1 kv.2.toAny) ∅

end JsonMap

/-! ## Struct fields -/

namespace Json

/-- The letter a letter is folded to. The long s and the Kelvin sign are the two letters outside ASCII that
    fold to an ASCII one. -/
def foldChar (c : Char) : Char :=
  if c = '\u017F' then 's' else if c = '\u212A' then 'k' else c.toLower

def names (key field : String) : Bool := key.toList.map foldChar = field.toList.map foldChar

/-- A member decoded into a `string` field: `null` leaves it, another type is an error. -/
def intoString (old : String) : Json → Option String
  | .null => some old
  | .str s => some s
  | _ => none

/-- A member decoded into an `int64` field. -/
def intoInt (old : Int) : Json → Option Int
  | .null => some old
  | .num (some n) _ _ => some n
  | _ => none

/-- A member decoded into a `time.Time` field. -/
def intoTime (parse : String → Option Time) (old : Time) : Json → Option Time
  | .null => some old
  | .str s => parse s
  | _ => none

/-- A member decoded into a `map[string]any` field: `null` clears it, an object adds its members to it. -/
def intoMap (old : Option JsonMap) : Json → Option (Option JsonMap)
  | .null => some none
  | .obj members _ _ => some (some (old.getD [] ++ members))
  | _ => none

end Json

end SyncForge
