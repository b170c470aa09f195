import Mathlib

/-! # Separated texts

Texts that are joined with a separator, or cut at the ends of their lines. -/

namespace Orchestratord.Foundation

open List

/-! ## Joining -/

section Join

variable {α : Type} {sep : α}

theorem intercalate_cons_cons (first second : List α) (rest : List (List α)) :
    [sep].intercalate (first :: second :: rest) =
      first ++ sep :: [sep].intercalate (second :: rest) := by
  simp [intercalate]

/-- The separators of a joined text are those between its parts and those inside of them. -/
theorem count_intercalate [DecidableEq α] (first : List α) (rest : List (List α)) :
    ([sep].intercalate (first :: rest)).count sep =
      rest.length + ((first :: rest).map (count sep)).sum := by
  induction rest generalizing first with
  | nil => simp [intercalate]
  | cons _ _ ih =>
    rw [intercalate_cons_cons, count_append, count_cons_self, ih]
    simp only [map_cons, sum_cons, length_cons]
    omega

/-- A text is cut at its first separator in one way. -/
theorem cut_at_first {first first' later later' : List α} (hfi : sep ∉ first)
    (hfi' : sep ∉ first') (h : first ++ sep :: later = first' ++ sep :: later') :
    first = first' ∧ later = later' := by
  induction first generalizing first' with
  | nil =>
    cases first' with
    | nil => exact ⟨rfl, (cons.inj h).2⟩
    | cons => exact absurd (cons.inj h).1 (fun heq => hfi' (by simp [heq]))
  | cons _ _ ih =>
    rcases first' with _ | _
    · exact absurd (cons.inj h).1 (fun heq => hfi (by simp [heq]))
    obtain ⟨rfl, hre⟩ := cons.inj h
    obtain ⟨rfl, hla⟩ := ih (fun hmem => hfi (mem_cons_of_mem _ hmem))
      (fun hmem => hfi' (mem_cons_of_mem _ hmem)) hre
    exact ⟨rfl, hla⟩

variable {parts free : List (List α)}

/-- Parts without the separator can be read off the joined text. -/
theorem intercalate_injective_of_free
    (hpr : ∀ part ∈ parts, sep ∉ part) (hfr : ∀ part ∈ free, sep ∉ part)
    (hle : parts.length = free.length)
    (h : [sep].intercalate parts = [sep].intercalate free) : parts = free := by
  induction parts generalizing free with
  | nil => exact (length_eq_zero_iff.mp hle.symm).symm
  | cons _ rest ih =>
    obtain ⟨_, rest', rfl⟩ := exists_cons_of_length_eq_add_one hle.symm
    cases rest with
    | nil =>
      obtain rfl := length_eq_zero_iff.mp (Nat.succ.inj hle.symm)
      simpa [intercalate] using h
    | cons =>
      obtain ⟨_, _, rfl⟩ := exists_cons_of_length_eq_add_one (Nat.succ.inj hle.symm)
      obtain ⟨rfl, hre⟩ := cut_at_first (hpr _ (by simp)) (hfr _ (by simp)) h
      rw [ih (fun part hpa => hpr part (mem_cons_of_mem _ hpa))
        (fun part hpa => hfr part (mem_cons_of_mem _ hpa)) (Nat.succ.inj hle) hre]

/-- It is enough that one side is known to be without the separator: the other has as many parts
and as many separators. -/
theorem intercalate_injective [DecidableEq α]
    (hfr : ∀ part ∈ free, sep ∉ part) (hle : parts.length = free.length)
    (h : [sep].intercalate parts = [sep].intercalate free) : parts = free := by
  refine intercalate_injective_of_free ?_ hfr hle h
  rcases parts with _ | _
  · simp
  obtain ⟨first', rest', rfl⟩ := exists_cons_of_length_eq_add_one hle.symm
  have hco := congrArg (count sep) h
  rw [count_intercalate, count_intercalate, Nat.succ.inj hle] at hco
  have hze : ((first' :: rest').map (count sep)).sum = 0 := by
    rw [sum_eq_zero_iff]
    intro n hn
    obtain ⟨part, hpa, rfl⟩ := mem_map.mp hn
    exact count_eq_zero.mpr (hfr part hpa)
  intro _ hpa
  rw [hze, add_left_cancel_iff, sum_eq_zero_iff] at hco
  exact count_eq_zero.mp (hco _ (mem_map_of_mem hpa))

end Join

/-! ## Lines of bytes -/

def newline : UInt8 := 10

def carriageReturn : UInt8 := 13

/-- Cut after each newline, each carriage return, and each pair of the two; the start of the
current line has been read. What follows the last break is a line if it is not empty. -/
def splitLinesFrom (start : List UInt8) : List UInt8 → List (List UInt8)
  | [] => if start = [] then [] else [start]
  | byte :: rest =>
    if byte = newline then start :: splitLinesFrom [] rest
    else if byte = carriageReturn then
      match rest with
      | [] => [start]
      | next :: rest' =>
        if next = newline then start :: splitLinesFrom [] rest'
        else start :: splitLinesFrom [] (next :: rest')
    else splitLinesFrom (start ++ [byte]) rest

def splitLines (bytes : List UInt8) : List (List UInt8) := splitLinesFrom [] bytes

example : splitLines [97, 10, 10, 98, 13, 10, 99, 13] = [[97], [], [98], [99]] := by decide

/-- Each text with a newline after it. -/
def unlines (texts : List (List UInt8)) : List UInt8 := (texts.map (· ++ [newline])).flatten

/-- A text of one line. -/
def OneLine (text : List UInt8) : Prop := ∀ byte ∈ text, byte ≠ newline ∧ byte ≠ carriageReturn

variable {text : List UInt8}

theorem splitLinesFrom_oneLine (hte : OneLine text) (start rest : List UInt8) :
    splitLinesFrom start (text ++ rest) = splitLinesFrom (start ++ text) rest := by
  induction text generalizing start with
  | nil => rw [append_nil, nil_append]
  | cons byte _ ih =>
    obtain ⟨hne, hre⟩ := hte byte (by simp)
    rw [cons_append, splitLinesFrom.eq_def]
    dsimp only
    rw [if_neg hne, if_neg hre, ih fun other hot => hte other (by simp [hot]),
      append_assoc, singleton_append]

theorem splitLines_line (hte : OneLine text) (rest : List UInt8) :
    splitLines (text ++ newline :: rest) = text :: splitLines rest := by
  rw [splitLines, splitLinesFrom_oneLine hte, splitLinesFrom.eq_def]
  exact if_pos rfl

theorem splitLines_newline (rest : List UInt8) :
    splitLines (newline :: rest) = [] :: splitLines rest :=
  splitLines_line (by simp [OneLine] : OneLine []) rest

theorem splitLines_last (hte : OneLine text) (hne : text ≠ []) : splitLines text = [text] := by
  rw [splitLines, ← append_nil text, splitLinesFrom_oneLine hte, splitLinesFrom.eq_def]
  simp [hne]

@[simp] theorem unlines_nil : unlines [] = [] := rfl

theorem unlines_cons (text : List UInt8) (texts : List (List UInt8)) :
    unlines (text :: texts) = text ++ newline :: unlines texts := by
  simp [unlines]

theorem unlines_append (first later : List (List UInt8)) :
    unlines (first ++ later) = unlines first ++ unlines later := by
  simp [unlines]

variable {texts : List (List UInt8)}

theorem splitLines_unlines (hte : ∀ text ∈ texts, OneLine text) (rest : List UInt8) :
    splitLines (unlines texts ++ rest) = texts ++ splitLines rest := by
  induction texts with
  | nil => rfl
  | cons text _ ih =>
    rw [unlines_cons, append_assoc, cons_append, splitLines_line (hte text (by simp)),
      ih fun other hot => hte other (by simp [hot]), cons_append]

/-! ## Cuts -/

/-- Where a text can be cut: after some lines, just before a newline, or inside a line. -/
inductive Cut (texts : List (List UInt8)) (first later : List UInt8) : Prop where
  | between (k : Nat) (hfirst : first = unlines (texts.take k))
      (hlater : later = unlines (texts.drop k))
  | before (k : Nat) (text : List UInt8) (htext : texts[k]? = some text)
      (hfirst : first = unlines (texts.take k) ++ text)
      (hlater : later = newline :: unlines (texts.drop (k + 1)))
  | inside (k : Nat) (text start rest : List UInt8) (htext : texts[k]? = some text)
      (hsplit : text = start ++ rest) (hstart : start ≠ []) (hrest : rest ≠ [])
      (hfirst : first = unlines (texts.take k) ++ start)

theorem cut_unlines {first later : List UInt8} (h : unlines texts = first ++ later) :
    Cut texts first later := by
  induction texts generalizing first with
  | nil =>
    obtain ⟨rfl, rfl⟩ := append_eq_nil_iff.mp h.symm
    exact .between 0 rfl rfl
  | cons text _ ih =>
    rw [unlines_cons] at h
    rcases append_eq_append_iff.mp h with ⟨rest, hfi, hre⟩ | ⟨rest, hte, hla⟩
    · cases rest with
      | nil =>
        refine .before 0 text rfl (by simpa using hfi) ?_
        simpa using hre.symm
      | cons _ rest =>
        obtain ⟨rfl, hta⟩ := cons.inj hre
        -- the first line is whole, and the rest is cut further on
        rcases ih hta with ⟨k, hf, hl⟩ | ⟨k, other, ho, hf, hl⟩ |
          ⟨k, other, start, tail, ho, hsp, hs, ht, hf⟩
        · exact .between (k + 1) (by rw [hfi, hf, take_succ_cons, unlines_cons])
            (by rw [hl, drop_succ_cons])
        · exact .before (k + 1) other ho
            (by rw [hfi, hf, take_succ_cons, unlines_cons, append_assoc,
              cons_append]) (by rw [hl, drop_succ_cons])
        · exact .inside (k + 1) other start tail ho hsp hs ht
            (by rw [hfi, hf, take_succ_cons, unlines_cons, append_assoc, cons_append])
    · by_cases hf : first = []
      · subst hf
        exact .between 0 rfl (by rw [hla, hte, drop_zero, unlines_cons, nil_append])
      by_cases hr : rest = []
      · subst hr
        exact .before 0 text rfl (by simpa using hte.symm) (by simpa using hla)
      · exact .inside 0 text first rest rfl hte hf hr rfl

/-- The bytes up to the end of a line, with or without its newline. -/
def AtLineEnd (texts : List (List UInt8)) (bytes : List UInt8) : Prop :=
  ∃ k, bytes = unlines (texts.take k) ∨ bytes ++ [newline] = unlines (texts.take k)

variable {k n : Nat}

theorem length_unlines_take_le (texts : List (List UInt8)) (h : k ≤ n) :
    (unlines (texts.take k)).length ≤ (unlines (texts.take n)).length := by
  obtain ⟨d, rfl⟩ := Nat.exists_eq_add_of_le h
  rw [take_add, unlines_append, length_append]
  exact Nat.le_add_right _ _

theorem length_unlines_take_succ (hte : texts[k]? = some text) :
    (unlines (texts.take (k + 1))).length = (unlines (texts.take k)).length + text.length + 1 := by
  rw [take_add_one, hte]
  simp [unlines]
  omega

variable {start rest : List UInt8}

/-- The inside of a line is not its end. -/
theorem not_atLineEnd_inside (hte : texts[k]? = some text)
    (hsp : text = start ++ rest) (hst : start ≠ []) (hre : rest ≠ []) :
    ¬ AtLineEnd texts (unlines (texts.take k) ++ start) := by
  have hne := length_unlines_take_succ hte
  rw [hsp, length_append] at hne
  have hst := length_pos_of_ne_nil hst
  have hre := length_pos_of_ne_nil hre
  rintro ⟨n, h | h⟩
  all_goals
    have hle := congrArg length h
    simp only [length_append, length_singleton] at hle
    rcases lt_or_ge k n with hlt | hge
    · have := length_unlines_take_le texts (Nat.succ_le_of_lt hlt)
      rw [Nat.succ_eq_add_one] at this
      omega
    · have := length_unlines_take_le texts hge
      omega

/-! ## Reading chunk by chunk -/

/-- What a reader finds that cuts every chunk into its lines and passes over empty ones. -/
def pieces (chunks : List (List UInt8)) : List (List UInt8) :=
  (chunks.flatMap splitLines).filter (· ≠ [])

theorem pieces_cons (chunk : List UInt8) (chunks : List (List UInt8)) :
    pieces (chunk :: chunks) = (splitLines chunk).filter (· ≠ []) ++ pieces chunks := by
  simp [pieces]

/-- The newline that the last chunk has left to the next. -/
def owedNewline (owed : Bool) : List UInt8 := if owed then [newline] else []

/-- A newline at the front of a chunk makes no piece. -/
theorem filter_splitLines_owed (owed : Bool) (bytes : List UInt8) :
    (splitLines (owedNewline owed ++ bytes)).filter (· ≠ []) =
      (splitLines bytes).filter (· ≠ []) := by
  cases owed with
  | false => rfl
  | true =>
    rw [owedNewline, if_pos rfl, singleton_append, splitLines_newline]
    simp

section

/-- How far a reader has got: every text up to here has been found, and the chunk has ended after
it, or after its newline. -/
def Progress (texts : List (List UInt8)) (done : List (List UInt8)) (k : Nat) (owed : Bool) :
    Prop :=
  done.flatten ++ owedNewline owed = unlines (texts.take k)

variable {done : List (List UInt8)} {owed : Bool}

theorem Progress.atLineEnd (h : Progress texts done k owed) : AtLineEnd texts done.flatten := by
  refine ⟨k, ?_⟩
  cases owed with
  | false => exact .inl (by simpa [Progress, owedNewline] using h)
  | true => exact .inr h

/-- Where a body of chunks is first cut inside a line. -/
structure FirstBreak (texts done chunks : List (List UInt8)) (n : Nat) (start : List UInt8) :
    Prop where
  text : ∃ rest, rest ≠ [] ∧ texts[n]? = some (start ++ rest)
  start_ne : start ≠ []
  cut : ∃ first later, chunks = first ++ later ∧
    (done ++ first).flatten = unlines (texts.take n) ++ start ∧
    ∀ first' later', chunks = first' ++ later' → ¬ AtLineEnd texts (done ++ first').flatten →
      (done ++ first).flatten.length ≤ (done ++ first').flatten.length

variable {chunks : List (List UInt8)} {chunk : List UInt8}

theorem FirstBreak.cons
    (hend : AtLineEnd texts done.flatten) (h : FirstBreak texts (done ++ [chunk]) chunks n start) :
    FirstBreak texts done (chunk :: chunks) n start := by
  obtain ⟨hte, hst, first, later, hch, hcut, hle⟩ := h
  refine ⟨hte, hst, chunk :: first, later, by rw [hch, cons_append], ?_, ?_⟩
  · simpa using hcut
  intro first' later' hcut' hbad
  cases first' with
  | nil => exact absurd (by simpa using hend) hbad
  | cons _ first' =>
    obtain ⟨rfl, hre⟩ := cons.inj hcut'
    simpa using hle first' later' hre (by simpa using hbad)

/-- A chunk is empty, or begins with the newline that is owed. -/
theorem owed_split {later : List UInt8} (h : chunk ++ rest = owedNewline owed ++ later) :
    owed = true ∧ chunk = [] ∨ ∃ body, chunk = owedNewline owed ++ body ∧ later = body ++ rest := by
  rcases owed with _ | _
  · exact .inr ⟨chunk, rfl, h.symm⟩
  cases chunk with
  | nil => exact .inl ⟨rfl, rfl⟩
  | cons _ body =>
    obtain ⟨rfl, hla⟩ := cons.inj h
    exact .inr ⟨body, rfl, hla.symm⟩

/-- Every cut is at the end of a line and the texts are found as they are; or some cut is inside a
line, and the reader finds the start of it instead. -/
def Found (texts done chunks found : List (List UInt8)) : Prop :=
  ((∀ first later, chunks = first ++ later → AtLineEnd texts (done ++ first).flatten) ∧
    found = texts) ∨
  ∃ n start more, FirstBreak texts done chunks n start ∧ found = texts.take n ++ start :: more

/-- A chunk that ends at the end of a line leaves the rest to the next. -/
theorem Found.cons {found : List (List UInt8)}
    (hend : AtLineEnd texts done.flatten) (h : Found texts (done ++ [chunk]) chunks found) :
    Found texts done (chunk :: chunks) found := by
  rcases h with ⟨hcu, hfo⟩ | ⟨n, start, more, hbr, hfo⟩
  · refine .inl ⟨?_, hfo⟩
    intro first later h
    cases first with
    | nil => simpa using hend
    | cons _ first =>
      obtain ⟨rfl, hre⟩ := cons.inj h
      simpa using hcu first later hre
  · exact .inr ⟨n, start, more, hbr.cons hend, hfo⟩

/-- The pieces of a chunk: the whole lines in it, and what follows them. -/
theorem filter_splitLines_unlines {whole : List (List UInt8)} (hone : ∀ text ∈ whole, OneLine text)
    (hne : ∀ text ∈ whole, text ≠ []) (owed : Bool) (last : List UInt8) :
    (splitLines (owedNewline owed ++ (unlines whole ++ last))).filter (· ≠ []) =
      whole ++ (splitLines last).filter (· ≠ []) := by
  rw [filter_splitLines_owed, splitLines_unlines hone, filter_append, filter_eq_self.mpr]
  intro text hte
  simpa using hne text hte

theorem found_pieces (hone : ∀ text ∈ texts, OneLine text) (hne : ∀ text ∈ texts, text ≠ [])
    (k : Nat) (owed : Bool) (hdo : Progress texts done k owed)
    (hre : chunks.flatten = owedNewline owed ++ unlines (texts.drop k)) :
    Found texts done chunks (texts.take k ++ pieces chunks) := by
  induction chunks generalizing done k owed with
  | nil =>
    have hno : texts.drop k = [] := by
      have hnil := (append_eq_nil_iff.mp hre.symm).2
      cases hdr : texts.drop k with
      | nil => rfl
      | cons => simp [hdr, unlines_cons] at hnil
    refine .inl ⟨?_, ?_⟩
    · intro _ _ h
      obtain ⟨rfl, rfl⟩ := append_eq_nil_iff.mp h.symm
      simpa using hdo.atLineEnd
    · have := take_append_drop k texts
      rwa [hno] at this
  | cons _ chunks ih =>
    rw [pieces_cons, ← append_assoc]
    rcases owed_split (by simpa using hre) with ⟨rfl, rfl⟩ | ⟨body, rfl, hbo⟩
    · refine .cons hdo.atLineEnd ?_
      have hem : (splitLines []).filter (· ≠ []) = [] := rfl
      rw [hem, append_nil]
      exact ih k true (by simpa [Progress] using hdo) (by simpa using hre)
    have hsub : ∀ m, ∀ text ∈ (texts.drop k).take m, text ∈ texts := fun m text hte =>
    mem_of_mem_drop (mem_of_mem_take hte)
    have hli : ∀ m last, _ := fun m last => filter_splitLines_unlines
      (fun text hte => hone text (hsub m text hte))
      (fun text hte => hne text (hsub m text hte)) owed last
    have hdo' : ∀ m last, (done ++ [owedNewline owed ++ (unlines ((texts.drop k).take m) ++
        last)]).flatten = unlines (texts.take (k + m)) ++ last := by
      intro m _
      rw [take_add, unlines_append, ← hdo]
      simp
    rcases cut_unlines hbo with ⟨m, rfl, hla⟩ | ⟨m, text, hte, rfl, hla⟩ |
      ⟨m, text, start, rest, hte, hsp, hst, hrs, rfl⟩
    · refine .cons hdo.atLineEnd ?_
      have hfo : texts.take k ++ (splitLines (owedNewline owed ++
          unlines ((texts.drop k).take m))).filter (· ≠ []) = texts.take (k + m) := by
        have := hli m []
        rw [append_nil] at this
        rw [this, take_add]
        simp [splitLines, splitLinesFrom]
      rw [hfo]
      refine ih (k + m) false ?_ ?_
      · simpa [Progress, owedNewline] using hdo' m []
      · rw [hla, drop_drop]
        rfl
    · refine .cons hdo.atLineEnd ?_
      have hmem := mem_of_mem_drop (mem_of_getElem? hte)
      rw [getElem?_drop] at hte
      have hta : texts.take (k + m + 1) = texts.take k ++ (texts.drop k).take m ++ [text] := by
        rw [take_add_one, hte, take_add]
        rfl
      have hfo : texts.take k ++ ((texts.drop k).take m ++
          (splitLines text).filter (· ≠ [])) = texts.take (k + m + 1) := by
        rw [hta, splitLines_last (hone text hmem) (hne text hmem), append_assoc,
          filter_eq_self.mpr (by simpa using hne text hmem)]
      rw [hli m text, hfo]
      refine ih (k + m + 1) true ?_ ?_
      · rw [Progress, hdo', hta, ← take_add, append_assoc]
        simp [owedNewline, unlines]
      · rw [hla, drop_drop]
        rfl
    · -- the cut is inside a line, and the reader takes its start for a line
      have hmem := mem_of_mem_drop (mem_of_getElem? hte)
      have hsn : OneLine start := fun byte hby =>
        hone text hmem byte (by rw [hsp]; exact mem_append_left _ hby)
      rw [getElem?_drop, hsp] at hte
      refine .inr ⟨k + m, start, pieces chunks, ⟨⟨rest, hrs, hte⟩, hst, _, chunks,
        singleton_append.symm, hdo' m start, ?_⟩, ?_⟩
      · intro first' _ hcut hbad
        rw [hdo' m start]
        cases first' with
        | nil => exact absurd (by simpa using hdo.atLineEnd) hbad
        | cons =>
          obtain ⟨rfl, -⟩ := cons.inj hcut
          rw [append_cons, flatten_append, hdo' m start]
          exact (prefix_append _ _).length_le
      · rw [hli m start, splitLines_last hsn hst, filter_eq_self.mpr (by simpa using hst), take_add]
        simp

end

end Orchestratord.Foundation
