import Flowchart.Text.Quoted

/-!
# Values

The values that a JSON document holds. A number is an integer, or a real kept as it is written:
no program here computes with one, so two reals that are written differently are different values.
A string is a text, or a raw text with a half of a pair in it. A record keeps its fields in order,
and a name that comes again counts with its last value; names are texts, with the replacement
character for a half.

`same_iff` says that the comparison of values decides equality.
-/

set_option autoImplicit false

namespace Flowchart

/-- A value of a JSON document. -/
inductive Value where
  | null
  | bool (b : Bool)
  | int (n : Int)
  | real (literal : Text)
  | text (t : Text)
  /-- A string that is no text. -/
  | broken (s : BrokenText)
  | list (items : List Value)
  | record (fields : List (Text × Value))
deriving Repr, Inhabited

namespace Value

/-! ## Equality -/

mutual

def same : Value → Value → Bool
  | .null, .null => true
  | .bool a, .bool b => a == b
  | .int a, .int b => a == b
  | .real a, .real b => a == b
  | .text a, .text b => a == b
  | .broken a, .broken b => a == b
  | .list a, .list b => sameItems a b
  | .record a, .record b => sameFields a b
  | _, _ => false

/-- Whether two lists of values are the same. -/
def sameItems : List Value → List Value → Bool
  | [], [] => true
  | v :: vs, w :: ws => same v w && sameItems vs ws
  | _, _ => false

/-- Whether two lists of fields are the same. -/
def sameFields : List (Text × Value) → List (Text × Value) → Bool
  | [], [] => true
  | (k, v) :: vs, (l, w) :: ws => k == l && same v w && sameFields vs ws
  | _, _ => false

end

mutual

theorem same_iff : ∀ v w : Value, same v w = true ↔ v = w
  | .null, w => by cases w <;> simp [same]
  | .bool a, w => by cases w <;> simp [same]
  | .int a, w => by cases w <;> simp [same]
  | .real a, w => by cases w <;> simp [same]
  | .text a, w => by cases w <;> simp [same]
  | .broken a, w => by cases w <;> simp [same]
  | .list a, w => by cases w <;> simp [same, sameItems_iff a]
  | .record a, w => by cases w <;> simp [same, sameFields_iff a]

/-- The comparison of lists of values decides equality. -/
theorem sameItems_iff : ∀ vs ws : List Value, sameItems vs ws = true ↔ vs = ws
  | [], ws => by cases ws <;> simp [sameItems]
  | v :: vs, ws => by
      cases ws with
      | nil => simp [sameItems]
      | cons w ws => simp [sameItems, same_iff v w, sameItems_iff vs ws]

/-- The comparison of lists of fields decides equality. -/
theorem sameFields_iff : ∀ vs ws : List (Text × Value), sameFields vs ws = true ↔ vs = ws
  | [], ws => by cases ws <;> simp [sameFields]
  | (k, v) :: vs, ws => by
      cases ws with
      | nil => simp [sameFields]
      | cons w ws =>
          obtain ⟨l, w⟩ := w
          simp [sameFields, same_iff v w, sameFields_iff vs ws]

end

instance : DecidableEq Value := fun v w => decidable_of_iff _ (same_iff v w)

/-- A value as it takes part in comparisons: yes and no count as the numbers one and zero. -/
def plainForm : Value → Value
  | .bool b => .int (if b then 1 else 0)
  | v => v

def matchesValue (v w : Value) : Bool := decide (v.plainForm = w.plainForm)

/-- Whether a value can be looked up in a collection. Lists and records cannot. -/
def isKey : Value → Bool
  | .list _ => false
  | .record _ => false
  | _ => true

/-! ## Strings -/

/-- The string with the code points of a raw text. -/
def ofRaw (s : RawText) : Value :=
  if h : s.isWhole = true then .text s.chars else .broken ⟨s, Bool.eq_false_iff.mpr h⟩

/-- The code points of a string. -/
def raw? : Value → Option RawText
  | .text t => some (.ofText t)
  | .broken s => some s.points
  | _ => none

theorem ofRaw_ofText (t : Text) : ofRaw (.ofText t) = .text t := by
  rw [ofRaw, dif_pos (RawText.isWhole_ofText t), RawText.chars_ofText]

theorem raw?_ofRaw (s : RawText) : (ofRaw s).raw? = some s := by
  unfold ofRaw
  split
  · rename_i hwhole
    exact congrArg some (RawText.ofText_chars hwhole)
  · rfl

theorem ofRaw_injective {s u : RawText} (h : ofRaw s = ofRaw u) : s = u := by
  have hraw := congrArg raw? h
  rwa [raw?_ofRaw, raw?_ofRaw, Option.some.injEq] at hraw

/-- A value with code points is the string with them. -/
theorem ofRaw_of_raw? {v : Value} {s : RawText} (h : v.raw? = some s) : ofRaw s = v := by
  cases v with
  | text t =>
      obtain rfl := Option.some.inj h
      exact ofRaw_ofText t
  | broken b =>
      obtain rfl := Option.some.inj h
      have hbroken : ¬ b.points.isWhole = true := by simp [b.broken]
      rw [ofRaw, dif_neg hbroken]
  | _ => cases h

/-! ## Fields -/

/-- The value that a name has in a list of fields: the last one, when the name comes again. -/
def field? (name : Text) (fields : List (Text × Value)) : Option Value :=
  (fields.reverse.find? fun entry => entry.1 == name).map (·.2)

/-! ## How a value shows in text -/

/-- Whether a value counts as nothing: null, no, zero, and the empty text, list and record. -/
def isNothing : Value → Bool
  | .null => true
  | .bool b => !b
  | .int n => n == 0
  | .real literal =>
      (literal.takeWhile fun c => !(c == 'e' || c == 'E')).all fun c =>
        c == '0' || c == '.' || c == '-'
  | .text t => t.isEmpty
  | .broken _ => false
  | .list items => items.isEmpty
  | .record fields => fields.isEmpty

mutual

/-- A value as it shows inside another: a string stands between quotes there. -/
def shownInside : Value → Text
  | .null => "None".toList
  | .bool b => if b then "True".toList else "False".toList
  | .int n => Text.signedDecimal n
  | .real literal => literal
  | .text t => Text.quoted t
  | .broken s => Text.quotedRaw s.points
  | .list items => '[' :: Text.join ", ".toList (shownItems items) ++ [']']
  | .record fields => '{' :: Text.join ", ".toList (shownFields fields) ++ ['}']

/-- The items of a list as they show. -/
def shownItems : List Value → List Text
  | [] => []
  | v :: vs => shownInside v :: shownItems vs

/-- The fields of a record as they show. -/
def shownFields : List (Text × Value) → List Text
  | [] => []
  | (name, v) :: more => (Text.quoted name ++ ": ".toList ++ shownInside v) :: shownFields more

end

/-- A value as it shows in running text, with the replacement character for a half. -/
def shown : Value → Text
  | .text t => t
  | .broken s => s.points.filled
  | v => shownInside v

/-- The name of the kind of a value, for messages. -/
def kindName : Value → Text
  | .null => "NoneType".toList
  | .bool _ => "bool".toList
  | .int _ => "int".toList
  | .real _ => "float".toList
  | .text _ => "str".toList
  | .broken _ => "str".toList
  | .list _ => "list".toList
  | .record _ => "dict".toList

end Value

end Flowchart
