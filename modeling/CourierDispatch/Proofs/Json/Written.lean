import CourierDispatch.Json.Scanner
import CourierDispatch.Proofs.Json.Quoted

/-!
# The JSON texts of a value

A value has more than one JSON text: blanks may stand between any two tokens, and the characters of a
string may be spelled in more than one way. `Written v cs` says by recursion on the value that the
characters are one of its texts, and the printer picks the one without blanks.
-/

namespace CourierDispatch.Json

/-- Nothing but blanks. -/
def Gap (cs : List Char) : Prop := ∀ c ∈ cs, Scanner.isSpace c = true

instance (cs : List Char) : Decidable (Gap cs) :=
  List.decidableBAll (fun c => Scanner.isSpace c = true) cs

theorem gap_nil : Gap [] := List.forall_mem_nil _

def Padded (P : List Char → Prop) (cs : List Char) : Prop :=
  ∃ g ds g', Gap g ∧ P ds ∧ Gap g' ∧ cs = g ++ (ds ++ g')

theorem padded_of {P : List Char → Prop} {cs : List Char} (h : P cs) : Padded P cs :=
  ⟨[], cs, [], gap_nil, h, gap_nil, (List.append_nil cs).symm⟩

def Bracketed (left : Char) (P : List Char → Prop) (right : Char) (cs : List Char) : Prop :=
  ∃ ds, P ds ∧ cs = left :: ds ++ [right]

/-- Two parts with a mark between them. -/
def Joined (P : List Char → Prop) (mark : Char) (Q : List Char → Prop) (cs : List Char) : Prop :=
  ∃ ds es, P ds ∧ Q es ∧ cs = ds ++ mark :: es

mutual
/-- The characters are a text of the value. -/
def Written : Value → List Char → Prop
  | .string s => Quotes s
  | .array items => Bracketed '[' (WrittenItems items) ']'
  | .object members => Bracketed '\x7b' (WrittenMembers members) '\x7d'
  | v => (· = text v)

/-- The characters are what stands between the brackets of an array. -/
def WrittenItems : List Value → List Char → Prop
  | [] => Gap
  | [v] => Padded (Written v)
  | v :: w :: ws => Joined (Padded (Written v)) ',' (WrittenItems (w :: ws))

def WrittenMembers : List (String × Value) → List Char → Prop
  | [] => Gap
  | [(k, v)] => Joined (Padded (Quotes k)) ':' (Padded (Written v))
  | (k, v) :: m :: ms =>
    Joined (Joined (Padded (Quotes k)) ':' (Padded (Written v))) ',' (WrittenMembers (m :: ms))
end

mutual
/-- The compact text of a value is one of its texts. -/
theorem written_text (v : Value) : Written v (text v) := by
  match v with
  | .null | .bool _ | .number _ => rfl
  | .string s => exact quotes_quote s
  | .array items => exact ⟨_, writtenItems_itemTexts items, rfl⟩
  | .object members => exact ⟨_, writtenMembers_memberTexts members, rfl⟩

theorem writtenItems_itemTexts (items : List Value) :
    WrittenItems items (commaSeparated (itemTexts items)) := by
  match items with
  | [] => exact gap_nil
  | [v] => exact padded_of (written_text v)
  | v :: w :: ws =>
      exact ⟨_, _, padded_of (written_text v), writtenItems_itemTexts (w :: ws), rfl⟩

theorem writtenMembers_memberTexts (members : List (String × Value)) :
    WrittenMembers members (commaSeparated (memberTexts members)) := by
  have hmember (k : String) (v : Value) (hv : Written v (text v)) :
      Joined (Padded (Quotes k)) ':' (Padded (Written v)) (quote k.toList ++ ':' :: text v) :=
    ⟨_, _, padded_of (quotes_quote k), padded_of hv, rfl⟩
  match members with
  | [] => exact gap_nil
  | [(k, v)] => exact hmember k v (written_text v)
  | (k, v) :: m :: ms =>
      exact ⟨_, _, hmember k v (written_text v), writtenMembers_memberTexts (m :: ms), rfl⟩
end

end CourierDispatch.Json
