import Mathlib

/-! # Text

String operations of the host language, as functions on the list of characters.
They are structurally recursive, so that a concrete text can be evaluated. -/

namespace Orchestratord.Foundation.Text

open List

/-- The characters that stripping removes: every code point of the
whitespace class, not only the ASCII ones. -/
def isSpace (c : Char) : Bool :=
  (9 ≤ c.toNat && c.toNat ≤ 13) || (28 ≤ c.toNat && c.toNat ≤ 32) ||
    c.toNat == 0x85 || c.toNat == 0xA0 || c.toNat == 0x1680 ||
    (0x2000 ≤ c.toNat && c.toNat ≤ 0x200A) || c.toNat == 0x2028 || c.toNat == 0x2029 ||
    c.toNat == 0x202F || c.toNat == 0x205F || c.toNat == 0x3000

/-- Remove the characters that satisfy `p` from the end. -/
def rstripWhere (p : Char → Bool) (s : String) : String :=
  String.ofList (s.toList.reverse.dropWhile p).reverse

variable (s : String)

/-- Remove whitespace from both ends. -/
def strip : String := rstripWhere isSpace (String.ofList (s.toList.dropWhile isSpace))

/-- Lower case, for the ASCII letters. -/
def lower : String := String.ofList (s.toList.map Char.toLower)

/-- Upper case, for the ASCII letters. -/
def upper : String := String.ofList (s.toList.map Char.toUpper)

/-- `needle` occurs in `s`. -/
def contains (needle : String) : Bool := decide (needle.toList <:+: s.toList)

/-- `pre` starts `s`. -/
def startsWith (pre : String) : Bool := pre.toList.isPrefixOf s.toList

/-- `suf` ends `s`. -/
def endsWith (suf : String) : Bool := suf.toList.isSuffixOf s.toList

/-- Replace the occurrences of `old`, leftmost first. The number counts the
characters of an occurrence already replaced that are still to be skipped. -/
def replaceChars (old new : List Char) : Nat → List Char → List Char
  | _, [] => []
  | n + 1, _ :: cs => replaceChars old new n cs
  | 0, c :: cs =>
    if old.isPrefixOf (c :: cs) then new ++ replaceChars old new (old.length - 1) cs
    else c :: replaceChars old new 0 cs

def replace (old new : String) : String :=
  String.ofList (replaceChars old.toList new.toList 0 s.toList)

/-- What follows `pre`, a text in lower case, at the start; letters of either case match. -/
def dropPrefixIgnoringCase : List Char → List Char → Option (List Char)
  | [], cs => some cs
  | _ :: _, [] => none
  | p :: pre, c :: cs => if c.toLower = p then dropPrefixIgnoringCase pre cs else none

/-- Split at line feeds; a final line feed opens no further line. -/
def splitLines : List String :=
  let step := fun (c : Char) (acc : List (List Char)) =>
    match acc with
    | [] => if c = '\n' then [[]] else [[c]]
    | line :: rest => if c = '\n' then [] :: line :: rest else (c :: line) :: rest
  (s.toList.foldr step []).map String.ofList

/-- Reading a text file makes every line end a line feed. -/
def universalNewlines : List Char → List Char
  | [] => []
  | '\r' :: '\n' :: cs => '\n' :: universalNewlines cs
  | '\r' :: cs => '\n' :: universalNewlines cs
  | c :: cs => c :: universalNewlines cs

theorem universalNewlines_eq_self {cs : List Char} (h : '\r' ∉ cs) : universalNewlines cs = cs := by
  induction cs with
  | nil => rfl
  | cons c cs ih =>
    rw [mem_cons, not_or] at h
    rw [universalNewlines, ih h.2]
    · rintro rest rfl
      exact absurd rfl h.1
    · rintro rfl
      exact absurd rfl h.1

/-! ## Stripping -/

theorem toList_strip : (strip s).toList = (s.toList.dropWhile isSpace).rdropWhile isSpace := by
  simp [strip, rstripWhere, rdropWhile]

/-- A stripped text has no whitespace at either end. -/
theorem ends_of_strip_eq_self {s : String} (h : strip s = s) :
    s.toList.dropWhile isSpace = s.toList ∧ s.toList.rdropWhile isSpace = s.toList := by
  have hli := (toList_strip s).symm.trans (congrArg String.toList h)
  have hle := congrArg length hli
  have hba := (List.rdropWhile_prefix isSpace (s.toList.dropWhile isSpace)).length_le
  have hfr := (dropWhile_suffix (l := s.toList) isSpace).length_le
  have hdr : s.toList.dropWhile isSpace = s.toList :=
    (dropWhile_suffix isSpace).eq_of_length (by omega)
  rw [hdr] at hli
  exact ⟨hdr, hli⟩

/-- Whitespace after a text goes when the text is stripped. -/
theorem rdropWhile_append {p : Char → Bool} {cs blanks : List Char} (hcs : cs.rdropWhile p = cs)
    (hbl : ∀ c ∈ blanks, p c) : (cs ++ blanks).rdropWhile p = cs := by
  induction blanks using reverseRecOn with
  | nil => rwa [append_nil]
  | append_singleton blanks c ih =>
    rw [← append_assoc, rdropWhile_concat_pos p _ c (hbl c (by simp))]
    exact ih fun c' hc' => hbl c' (mem_append_left [c] hc')

/-- Cut at the first `n` occurrences of a separator. -/
def splitAtMost (separator : Char) : Nat → List Char → List (List Char)
  | 0, chars => [chars]
  | n + 1, chars =>
    if separator ∈ chars then
      chars.takeWhile (· != separator) ::
        splitAtMost separator n (chars.dropWhile (· != separator)).tail
    else [chars]

theorem splitAtMost_append {separator : Char} {part : List Char} (h : separator ∉ part) (n : Nat)
    (rest : List Char) : splitAtMost separator (n + 1) (part ++ separator :: rest) =
      part :: splitAtMost separator n rest := by
  have hpa : ∀ c ∈ part, (c != separator) = true := by
    intro c hc
    simpa using ne_of_mem_of_not_mem hc h
  simp [splitAtMost, takeWhile_append_of_pos hpa, dropWhile_append_of_pos hpa]

end Orchestratord.Foundation.Text
