import DesktopCube.Library.CMemory

namespace DesktopCube.Http
open CMemory

inductive CjsonType where
  | null
  | bool
  | number
  | string
  | array
  | object
  deriving DecidableEq, Repr

/-- The library cJSON as far as its callers rely on it. -/
structure Cjson where
  Item : Type
  Double : Type
  parse : CString → Option Item
  getObjectItem : Option Item → CString → Option Item
  type : Item → CjsonType
  valuedouble : Item → Double
  valueint : Item → Int
  valuestring : Item → Option CString
  getObjectItem_null : ∀ name, getObjectItem none name = none
  getObjectItem_object : ∀ parent name item,
    getObjectItem (some parent) name = some item → type parent = .object
  valuestring_isSome : ∀ item, (valuestring item).isSome = true ↔ type item = .string

/-- The member names that the two requests look up. -/
inductive Key where
  | currentTime
  | result
  | location
  | now
  | name
  | text
  | temp
  | rh
  | windClass
  | windDir
  deriving DecidableEq, Repr

def Key.string : Key → CString
  | .currentTime => ⟨ascii "currentTime", by decide⟩
  | .result => ⟨ascii "result", by decide⟩
  | .location => ⟨ascii "location", by decide⟩
  | .now => ⟨ascii "now", by decide⟩
  | .name => ⟨ascii "name", by decide⟩
  | .text => ⟨ascii "text", by decide⟩
  | .temp => ⟨ascii "temp", by decide⟩
  | .rh => ⟨ascii "rh", by decide⟩
  | .windClass => ⟨ascii "wind_class", by decide⟩
  | .windDir => ⟨ascii "wind_dir", by decide⟩

/-- A parsed value owns its members. -/
inductive Json where
  | null
  | bool (value : Bool)
  | number (value : Int)
  | string (value : CString)
  | array (elements : List Json)
  | object (members : List (CString × Json))

namespace Json

def type : Json → CjsonType
  | .null => .null
  | .bool _ => .bool
  | .number _ => .number
  | .string _ => .string
  | .array _ => .array
  | .object _ => .object

/-- The function `tolower` of the C locale. -/
def tolower (byte : UInt8) : UInt8 := if 65 ≤ byte ∧ byte ≤ 90 then byte + 32 else byte

/-- The first member whose name agrees up to the case of its letters. -/
def getObjectItem : Option Json → CString → Option Json
  | some (.object members), name =>
      (members.find? fun member => member.1.bytes.map tolower = name.bytes.map tolower).map (·.2)
  | _, _ => none

/-- The number of a value that is not a number is zero except for true. -/
def valueint : Json → Int
  | .number value => value
  | .bool true => 1
  | _ => 0

def valuedouble : Json → Int
  | .number value => value
  | _ => 0

def valuestring : Json → Option CString
  | .string value => some value
  | _ => none

/-- The trees of a parser behave as the callers expect. -/
def cjson (parse : CString → Option Json) : Cjson where
  Item := Json
  Double := Int
  parse := parse
  getObjectItem := getObjectItem
  type := type
  valuedouble := valuedouble
  valueint := valueint
  valuestring := valuestring
  getObjectItem_null _ := rfl
  getObjectItem_object parent name item found := by
    cases parent with
    | object members => rfl
    | null | bool | number | string | array => cases found
  valuestring_isSome item := by cases item <;> simp [valuestring, type]

end Json

end DesktopCube.Http
