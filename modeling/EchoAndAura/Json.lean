/-!
# JSON

Values as `JSON.parse` gives them, their texts in `σ`.  A number is a decimal: `decimal m k` is `m`
over ten to the `k`.
-/

inductive JsonValue (σ : Type)
  | null
  | bool (b : Bool)
  | decimal (m : Int) (k : Nat)
  | str (s : σ)
  | arr (items : List (JsonValue σ))
  | obj (fields : List (σ × JsonValue σ))

namespace JsonValue

variable {σ : Type}

mutual

/-- Every text in a value, the names of its fields among them. -/
def strings : JsonValue σ → List σ
  | null => []
  | bool _ => []
  | decimal _ _ => []
  | str s => [s]
  | arr items => itemStrings items
  | obj fields => fieldStrings fields

def itemStrings : List (JsonValue σ) → List σ
  | [] => []
  | item :: items => strings item ++ itemStrings items

def fieldStrings : List (σ × JsonValue σ) → List σ
  | [] => []
  | (name, value) :: fields => name :: (strings value ++ fieldStrings fields)

end

end JsonValue
