import SparkLedger.Ranged
import SparkLedger.Json.Reader

/-!
# Reading records from JSON

Readers for the shapes that stored and received data have. A record is an object of named
members, or an array of its fields in order. Members nobody asks for are skipped; a member that
is asked for may occur once only. What a field means when it is missing is said where the field
is read: `required`, `defaulted` or `optional`.

Objects of the cluster follow looser rules, which the functions on members have: a member may
be repeated, every occurrence has to be readable and the last one counts, and null is absence.
-/

namespace SparkLedger.Json

/-! ## Single values -/

/-- A string. -/
def asString? : Json → Option String
  | .str s => some s
  | _ => none

/-- A truth value. -/
def asBool? : Json → Option Bool
  | .bool b => some b
  | _ => none

/-- An integer of a range; a float is none, whatever its value. -/
def asRanged? {lo hi : Int} : Json → Option (Ranged lo hi)
  | .int i => Ranged.ofInt? i
  | _ => none

/-- Any number, rounded to a float. -/
def asFloat? : Json → Option Binary64
  | .int i => some (.ofInt i)
  | .float f => some f
  | _ => none

/-- A list, read item by item. -/
def asList? {α : Type} (read : Json → Option α) : Json → Option (List α)
  | .arr xs => xs.mapM read
  | _ => none

/-- Null for nothing, or a value. -/
def asNullable? {α : Type} (read : Json → Option α) : Json → Option (Option α)
  | .null => some none
  | j => (read j).map some

/-- A map from keys that are read as they show; of two members with one key the later counts. -/
def asMap? {κ α : Type} [Ord κ] [Std.TransOrd κ] [Std.LawfulEqOrd κ] [DecidableEq κ]
    (readKey : String → Option κ) (read : Json → Option α) : Json → Option (SortedMap κ α)
  | .obj ms => (ms.mapM fun (k, v) => do return ((← readKey k), (← read v))).map SortedMap.ofList
  | _ => none

/-- A map from texts; of two members with one key the later counts. -/
def asTextMap? {α : Type} (read : Json → Option α) : Json → Option (SortedMap String α) :=
  asMap? some fun j => read j.undisguised

/-- One of a fixed choice of names: the name itself, or an object that gives it a null. -/
def asName? {α : Type} (ofName? : String → Option α) : Json → Option α
  | .str s => ofName? s
  | .obj [(s, .null)] => ofName? s
  | .obj [(s, .disguised .null)] => ofName? s
  | _ => none

/-! ## Records -/

/-- The fields of a record, by name or by place. -/
inductive Fields where
  | named (members : List (String × Json))
  | placed (items : List Json)

/-- The fields of a value that can stand for a record. -/
def fields? : Json → Option Fields
  | .obj ms => some (.named ms)
  | .arr xs => some (.placed xs)
  | _ => none

/-- A reader of records, field after field in the order of their places. -/
abbrev Record (α : Type) := StateT Fields Option α

namespace Record

variable {α : Type}

/-- The next field. `absent` is its value where no member has its name, `short` its value where
the array has ended before it. -/
def field (name : String) (read : Json → Option α) (absent short : Option α) : Record α
  | .named ms =>
    match ms.filter (·.1 = name) with
    | [] => absent.map (·, .named ms)
    | [m] => (read m.2).map (·, .named ms)
    | _ => none
  | .placed [] => short.map (·, .placed [])
  | .placed (x :: xs) => (read x).map (·, .placed xs)

/-- A field that has to be there. -/
def required (name : String) (read : Json → Option α) : Record α :=
  field name read none none

/-- A field with a value of its own where it is missing. -/
def defaulted (name : String) (read : Json → Option α) (default : α) : Record α :=
  field name read (some default) (some default)

/-- A field that may be null, or missing by its name. -/
def optional (name : String) (read : Json → Option α) : Record (Option α) :=
  field name (asNullable? read) (some none) none

/-- A field that may be null or missing in either form. -/
def nullable (name : String) (read : Json → Option α) : Record (Option α) :=
  defaulted name (asNullable? read) none

/-- Reads a whole record: an array may not have items left over. -/
def read (r : Record α) (j : Json) : Option α := do
  let fields ← j.fields?
  match ← r.run fields with
  | (_, .placed (_ :: _)) => none
  | (a, _) => some a

end Record

/-! ## Members of cluster objects -/

/-- The members, if the value is an object. -/
def asMembers? : Json → Option (List (String × Json))
  | .obj ms => some ms
  | _ => none

/-- The last of the members with this name; null and absence are none. -/
def lastMember? {α : Type} (name : String) (read : Json → Option α)
    (ms : List (String × Json)) : Option (Option α) :=
  (ms.filter (·.1 = name)).foldlM (fun _ m => asNullable? read m.2) none

/-- The last of the members with this name, or a default. -/
def lastMemberD? {α : Type} (name : String) (read : Json → Option α) (default : α)
    (ms : List (String × Json)) : Option α :=
  (lastMember? name read ms).map (·.getD default)

end SparkLedger.Json
