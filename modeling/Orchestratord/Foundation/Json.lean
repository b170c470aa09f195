import Mathlib

/-! # JSON values

Values as a program has them after parsing. An object is the list of its entries in order, with
distinct keys; numbers are exact. The text of a value is left to the program that prints it. -/

namespace Orchestratord.Foundation

open List

inductive Json where
  | null
  | bool (b : Bool)
  | int (n : Int)
  | float (q : ℚ)
  | str (s : String)
  | arr (items : List Json)
  | obj (fields : List (String × Json))

namespace Json

abbrev Fields := List (String × Json)

/-- The value of a key; an absent key has the value null. -/
def get (fields : Fields) (key : String) : Json := (fields.lookup key).getD .null

/-- Write a key: in its place if it is present, else at the end. -/
def set : Fields → String → Json → Fields
  | [], key, value => [(key, value)]
  | entry :: rest, key, value =>
    if entry.1 = key then (key, value) :: rest else entry :: set rest key value

/-- What counts as true in a condition. -/
def truthy : Json → Bool
  | .null => false
  | .bool b => b
  | .int n => n ≠ 0
  | .float q => q ≠ 0
  | .str s => s ≠ ""
  | .arr items => ! items.isEmpty
  | .obj fields => ! fields.isEmpty

/-- Nothing, or a container with nothing in it. -/
def isBlank : Json → Bool
  | .null | .arr [] | .obj [] => true
  | _ => false

/-- An object's entries. -/
def fields? : Json → Option Fields
  | .obj fields => some fields
  | _ => none

/-- Nothing is null. -/
def ofFields : Option Fields → Json
  | none => .null
  | some fields => .obj fields

@[simp] theorem fields?_ofFields (fields : Option Fields) : (ofFields fields).fields? = fields := by
  cases fields <;> rfl

/-! ## Reading a value as what it was written from -/

/-- The value of a key, or a default for an absent one. -/
def getOr (fields : Fields) (key : String) (default : Json) : Json :=
  (fields.lookup key).getD default

def str? : Json → Option String
  | .str s => some s
  | _ => none

def int? : Json → Option Int
  | .int n => some n
  | _ => none

def number? : Json → Option ℚ
  | .float q => some q
  | .int n => some n
  | _ => none

@[simp] theorem str?_str (s : String) : str? (.str s) = some s := rfl

@[simp] theorem int?_int (n : Int) : int? (.int n) = some n := rfl

@[simp] theorem number?_float (q : ℚ) : number? (.float q) = some q := rfl

section

variable {α : Type}
variable (write : α → Json)

def ofOption : Option α → Json
  | none => .null
  | some a => write a

variable (read : Json → Option α)

def option? : Json → Option (Option α)
  | .null => some none
  | v => (read v).map some

theorem option?_ofOption_str (text : Option String) :
    option? str? (ofOption .str text) = some text := by
  cases text <;> rfl

theorem option?_ofOption_int (n : Option Int) : option? int? (ofOption .int n) = some n := by
  cases n <;> rfl

def items? : Json → Option (List α)
  | .arr items => items.mapM read
  | _ => none

/-- An object read entry by entry. -/
def entries? (read : String × Json → Option α) : Json → Option (List α)
  | .obj fields => fields.mapM read
  | _ => none

theorem mapM_map_of_inverse {β : Type} {read : β → Option α} (write : α → β)
    (h : ∀ a, read (write a) = some a) (items : List α) :
    (items.map write).mapM read = some items := by
  induction items with
  | nil => rfl
  | cons _ _ ih => simp [h, ih]

theorem items?_arr {read : Json → Option α} (h : ∀ a, read (write a) = some a) (items : List α) :
    items? read (.arr (items.map write)) = some items :=
  mapM_map_of_inverse write h items

theorem entries?_obj {read : String × Json → Option α} (write : α → String × Json)
    (h : ∀ a, read (write a) = some a) (items : List α) :
    entries? read (.obj (items.map write)) = some items :=
  mapM_map_of_inverse write h items

end

theorem get_cons (entry : String × Json) (rest : Fields) (key : String) :
    get (entry :: rest) key = if key = entry.1 then entry.2 else get rest key := by
  unfold get
  rw [lookup_cons]
  split <;> simp_all

variable {fields : Fields} {key : String}

theorem lookup_eq_none : fields.lookup key = none ↔ key ∉ fields.map Prod.fst := by
  induction fields with
  | nil => simp
  | cons entry _ ih =>
    rw [map_cons, mem_cons, not_or]
    by_cases heq : key = entry.1
    · simp [heq]
    · rw [lookup_cons, beq_eq_false_iff_ne.mpr heq]
      simp only [ih, heq, not_false_eq_true, true_and]

theorem get_of_notMem (h : key ∉ fields.map Prod.fst) : get fields key = .null := by
  rw [get, lookup_eq_none.mpr h]
  rfl

theorem get_append (first later : Fields) (key : String) : get (first ++ later) key =
      if key ∈ first.map Prod.fst then get first key else get later key := by
  unfold get
  rw [lookup_append]
  split
  · have hso : first.lookup key ≠ none := by rwa [ne_eq, lookup_eq_none, not_not]
    obtain ⟨value, hva⟩ := Option.ne_none_iff_exists'.mp hso
    rw [hva]
    rfl
  case isFalse hmem => rw [lookup_eq_none.mpr hmem, Option.none_or]

/-- Leaving out entries by their value leaves the others where they are. -/
theorem get_filter (hno : (fields.map Prod.fst).Nodup) (keep : Json → Bool) (key : String) :
    get (fields.filter (keep ·.2)) key =
      if keep (get fields key) then get fields key else .null := by
  induction fields with
  | nil => exact (ite_self _).symm
  | cons entry rest ih =>
    rw [map_cons, nodup_cons] at hno
    have ih := ih hno.2
    rw [filter_cons, get_cons entry rest]
    by_cases hkey : key = entry.1
    · have hab : key ∉ (rest.filter (keep ·.2)).map Prod.fst := by
        intro hmem
        exact hno.1 (hkey ▸ (filter_sublist.map Prod.fst).subset hmem)
      rw [if_pos hkey]
      by_cases hke : keep entry.2
      · rw [if_pos hke, get_cons, if_pos hkey, if_pos hke]
      · rw [if_neg hke, if_neg hke, get_of_notMem hab]
    · split
      · rw [get_cons, if_neg hkey, ih]
      · exact ih

theorem get_set (fields : Fields) (key other : String) (value : Json) :
    get (set fields key value) other = if other = key then value else get fields other := by
  induction fields with
  | nil => simp [set, get_cons]
  | cons entry _ ih =>
    rw [set]
    by_cases hen : entry.1 = key
    · rw [if_pos hen, get_cons, get_cons, hen]
      split <;> rfl
    rw [if_neg hen, get_cons, get_cons, ih]
    by_cases hot : other = entry.1
    · have hne : other ≠ key := hot ▸ hen
      rw [if_pos hot, if_neg hne, if_pos hot]
    · simp [hot]

/-! ## An injective text

Any printer that can be read back prints injectively. That there is one at all is shown by a
sequence of tokens in prefix order. -/

inductive Token where
  | null
  | bool (b : Bool)
  | int (n : Int)
  | float (q : ℚ)
  | str (chars : List Nat)
  | arr
  | obj
  | item
  | stop
  deriving DecidableEq, Encodable

def stringToken (s : String) : Token := .str (s.toList.map Char.toNat)

theorem stringToken_inj {s t : String} (h : stringToken s = stringToken t) : s = t := by
  injection h with h
  exact String.toList_inj.mp (map_injective_iff.mpr (fun _ _ => Char.toNat_inj.mp) h)

mutual

def tokens : Json → List Token
  | .null => [.null]
  | .bool b => [.bool b]
  | .int n => [.int n]
  | .float q => [.float q]
  | .str s => [stringToken s]
  | .arr items => .arr :: itemTokens items
  | .obj fields => .obj :: fieldTokens fields

def itemTokens : List Json → List Token
  | [] => [.stop]
  | item :: rest => .item :: (tokens item ++ itemTokens rest)

def fieldTokens : List (String × Json) → List Token
  | [] => [.stop]
  | (key, value) :: rest => .item :: stringToken key :: (tokens value ++ fieldTokens rest)

end

mutual

/-- A value is read off the front of its tokens. -/
theorem tokens_append_inj : (a b : Json) → (x y : List Token) →
    tokens a ++ x = tokens b ++ y → a = b ∧ x = y
  | .null, b, x, y, h => by
    cases b <;> simp_all [tokens, stringToken]
  | .bool _, b, x, y, h | .int _, b, x, y, h | .float _, b, x, y, h => by
    cases b <;> simp_all [tokens, stringToken]
  | .str s, b, x, y, h => by
    cases b with
    | str =>
      obtain ⟨hhe, hta⟩ := cons.inj h
      exact ⟨congrArg _ (stringToken_inj hhe), hta⟩
    | _ => simp_all [tokens, stringToken]
  | .arr items, b, x, y, h => by
    cases b with
    | arr items' =>
      obtain ⟨his, hta⟩ := itemTokens_append_inj items items' x y (cons.inj h).2
      exact ⟨congrArg _ his, hta⟩
    | _ => simp_all [tokens, stringToken]
  | .obj fields, b, x, y, h => by
    cases b with
    | obj fields' =>
      obtain ⟨hfi, hta⟩ := fieldTokens_append_inj fields fields' x y (cons.inj h).2
      exact ⟨congrArg _ hfi, hta⟩
    | _ => simp_all [tokens, stringToken]

theorem itemTokens_append_inj : (a b : List Json) → (x y : List Token) →
    itemTokens a ++ x = itemTokens b ++ y → a = b ∧ x = y
  | [], b, x, y, h => by
    cases b <;> simp_all [itemTokens]
  | item :: rest, b, x, y, h => by
    rcases b with _ | ⟨item', rest'⟩
    · simp [itemTokens] at h
    simp only [itemTokens, cons_append, cons.injEq, true_and, append_assoc] at h
    obtain ⟨rfl, hre⟩ := tokens_append_inj item item' _ _ h
    obtain ⟨rfl, hta⟩ := itemTokens_append_inj rest rest' x y hre
    exact ⟨rfl, hta⟩

theorem fieldTokens_append_inj : (a b : List (String × Json)) → (x y : List Token) →
    fieldTokens a ++ x = fieldTokens b ++ y → a = b ∧ x = y
  | [], b, x, y, h => by
    cases b <;> simp_all [fieldTokens]
  | (key, value) :: rest, b, x, y, h => by
    rcases b with _ | ⟨entry, rest'⟩
    · simp [fieldTokens] at h
    obtain ⟨key', value'⟩ := entry
    simp only [fieldTokens, cons_append, cons.injEq, true_and, append_assoc] at h
    obtain rfl := stringToken_inj h.1
    obtain ⟨rfl, hre⟩ := tokens_append_inj value value' _ _ h.2
    obtain ⟨rfl, hta⟩ := fieldTokens_append_inj rest rest' x y hre
    exact ⟨rfl, hta⟩

end

theorem tokens_injective : Function.Injective tokens := by
  intro a b h
  exact (tokens_append_inj a b [] [] (by rw [h])).1

end Json

end Orchestratord.Foundation
