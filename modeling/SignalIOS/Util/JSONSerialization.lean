import SignalIOS.Util.LongLongValue

/-! The helpers of strings and dictionaries for JSON, over what they need of `NSJSONSerialization`. -/
namespace SignalIOS

/-- What a number or a Boolean is read as. Numbers with a fraction or an exponent are given by what
they are converted to. -/
inductive JSONNumber
  | boolean (value : Bool)
  | integer (value : ℤ)
  | fraction (unsignedShortValue : UInt16) (description : NSString)
  deriving DecidableEq

namespace JSONNumber

def isBoolean : JSONNumber → Bool
  | boolean _ => true
  | _ => false

def unsignedShortValue : JSONNumber → UInt16
  | boolean value => if value then 1 else 0
  | integer value => .ofInt value
  | fraction unsignedShortValue _ => unsignedShortValue

def description : JSONNumber → NSString
  | boolean value => if value then "1".toList else "0".toList
  | integer value =>
    if value < 0 then '-' :: NSString.ofNumber value.natAbs else NSString.ofNumber value.natAbs
  | fraction _ description => description

end JSONNumber

/-- A value in a dictionary: a number or a Boolean, a string, or one of another class. -/
inductive JSONValue
  | number (value : JSONNumber)
  | string (value : NSString)
  | other

/-- What stands at the root of a text: a dictionary by the values of its keys, or something else. -/
inductive JSONObject
  | dictionary (fields : NSString → Option JSONValue)
  | other

namespace JSONObject

/-- The value of a key. Other objects have no keys. -/
def fields : JSONObject → NSString → Option JSONValue
  | dictionary fields, key => fields key
  | other, _ => none

end JSONObject

/-- `NSJSONSerialization`, with the descriptions of the errors that it sets. -/
class JSONSerialization where
  jsonObjectWithData : NSData → Except NSString JSONObject
  dataWithJSONObject : List (NSString × JSONValue) → Except NSString NSData

/-- Strings, and the integers of 64 bits. -/
def JSONValue.IsWritable : JSONValue → Prop
  | number (.integer value) => -2 ^ 63 ≤ value ∧ value < 2 ^ 64
  | string _ => True
  | _ => False

section
variable [JSONSerialization]

/-- A dictionary of strings and integers is written in UTF-8, and an equal one is read from that. -/
structure JSONSerialization.Lawful : Prop where
  reads_written : ∀ entries : List (NSString × JSONValue),
    (∀ entry ∈ entries, entry.2.IsWritable) → (entries.map Prod.fst).Nodup →
      ∃ text : NSString, dataWithJSONObject entries = .ok text.encodedAsUtf8 ∧
        jsonObjectWithData text.encodedAsUtf8 = .ok (.dictionary (entries.lookup ·))

def encodedAsJson (entries : List (NSString × JSONValue)) : Throws NSString :=
  match JSONSerialization.dataWithJSONObject entries with
  | .error _ => .error (.operationFailed none)
  | .ok data => data.decodedAsUtf8

def NSString.decodedAsJsonIntoDictionary (json : NSString) :
    Throws (NSString → Option JSONValue) :=
  match JSONSerialization.jsonObjectWithData json.encodedAsUtf8 with
  | .error jsonParseError => .error (.operationFailed (some ("Json parse error: " ++
      String.ofList jsonParseError ++ ", on json: " ++ String.ofList json)))
  | .ok (.dictionary fields) => .ok fields
  | .ok .other => .error (.operationFailed (some "Unexpected json data"))

/-- What is encoded is decoded again. -/
theorem exists_decodedAsJson (hlawful : JSONSerialization.Lawful)
    {entries : List (NSString × JSONValue)} (hwritable : ∀ entry ∈ entries, entry.2.IsWritable)
    (hkeys : (entries.map Prod.fst).Nodup) :
    ∃ json, encodedAsJson entries = .ok json ∧
      json.decodedAsJsonIntoDictionary = .ok (entries.lookup ·) := by
  obtain ⟨text, hwritten, hread⟩ := hlawful.reads_written entries hwritable hkeys
  refine ⟨text, ?_, ?_⟩
  · rw [encodedAsJson, hwritten]
    exact NSData.decodedAsUtf8_eq_ok.mpr rfl
  · rw [NSString.decodedAsJsonIntoDictionary, hread]

end

end SignalIOS
