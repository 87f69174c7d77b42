import RecordSearch.RecordId
import RecordSearch.SortedBy

set_option autoImplicit false

namespace RecordSearch

inductive PropertyValue where
  | text (s : String)
  | integer (n : Int64)
  deriving DecidableEq, Repr

namespace PropertyValue

def text? : PropertyValue → Option String
  | .text s => some s
  | .integer _ => none

def integer? : PropertyValue → Option Int64
  | .integer n => some n
  | .text _ => none

def display : PropertyValue → String
  | .text s => s
  | .integer n => n.toInt.repr

end PropertyValue

abbrev Property := String × PropertyValue

def Property.name (p : Property) : String := p.1

/-- Properties by name; of several with one name, the last one given is kept. -/
abbrev Properties := SortedBy Property.name

structure Record where
  id : RecordId
  typeName : String
  properties : Properties
  deriving DecidableEq

def Record.property? (r : Record) (name : String) : Option PropertyValue :=
  (r.properties.find? name).map Prod.snd

end RecordSearch
