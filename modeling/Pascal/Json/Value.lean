import Pascal.Json.Numeral

/-!
# JSON values
-/

namespace Pascal

/-- A JSON value as it is written. A text that holds half of a surrogate pair has no content. -/
inductive Json where
  | null
  | bool (value : Bool)
  | number (numeral : Json.Numeral)
  | text (content : Option String)
  | array (elements : List Json)
  | object (members : List (Option String × Json))
  deriving Repr, Inhabited

/-- How deeply containers may be nested in each other. -/
def Json.depthLimit : Nat := 127

/-- Whether a value can be kept when containers may still be nested `room` deep. -/
def Json.isSound : Nat → Json → Bool
  | _, null => true
  | _, bool _ => true
  | _, number numeral => numeral.value?.isSome
  | _, text content => content.isSome
  | 0, array _ => false
  | 0, object _ => false
  | room + 1, array elements => elements.all (isSound room)
  | room + 1, object members => members.all fun (key, value) => key.isSome && isSound room value

end Pascal
