import Mathlib.Data.List.Basic

/-!
# Quoted text

Text between quotes in which a doubled quote stands for one, and the pieces of
a text between separators that stand outside quotes.  Doubling is undone
exactly, and a separator inside quotes is no separator.
-/

namespace TympanApo.Support

variable {α : Type*} [DecidableEq α]

/-- Write every quote twice. -/
def doubleQuotes (q : α) (l : List α) : List α :=
  l.flatMap fun c => if c = q then [q, q] else [c]

/-- Read up to the quote that ends the text. -/
def undoubleQuotes (q : α) : List α → Option (List α)
  | [] => none
  | [c] => if c = q then some [] else none
  | c :: d :: cs =>
      if c = q then
        if d = q then (undoubleQuotes q cs).map (q :: ·) else none
      else (undoubleQuotes q (d :: cs)).map (c :: ·)

/-- The pieces between the separators that stand outside quotes. -/
def splitOutside (sep q : α) : Bool → List α → List (List α)
  | _, [] => [[]]
  | inside, c :: cs =>
      if c = sep ∧ inside = false then [] :: splitOutside sep q false cs
      else
        (splitOutside sep q (if c = q then !inside else inside) cs).modifyHead
          (c :: ·)

variable {sep q c : α} {l rest : List α}

/-! ## Doubled quotes -/

theorem doubleQuotes_cons_self :
    doubleQuotes q (q :: l) = q :: q :: doubleQuotes q l := by
  simp [doubleQuotes]

theorem doubleQuotes_cons_of_ne (h : c ≠ q) :
    doubleQuotes q (c :: l) = c :: doubleQuotes q l := by
  simp [doubleQuotes, h]

theorem doubleQuotes_of_notMem (h : q ∉ l) : doubleQuotes q l = l := by
  induction l with
  | nil => rfl
  | cons c l ih =>
      obtain ⟨hc, hl⟩ := List.ne_and_not_mem_of_not_mem_cons h
      rw [doubleQuotes_cons_of_ne hc.symm, ih hl]

theorem undoubleQuotes_cons_of_ne (h : c ≠ q) :
    undoubleQuotes q (c :: l) = (undoubleQuotes q l).map (c :: ·) := by
  cases l with
  | nil => simp [undoubleQuotes, h]
  | cons d cs => rw [undoubleQuotes, if_neg h]

/-- Doubling is undone, whatever the text. -/
theorem undoubleQuotes_doubleQuotes (q : α) (l : List α) :
    undoubleQuotes q (doubleQuotes q l ++ [q]) = some l := by
  induction l with
  | nil => simp [doubleQuotes, undoubleQuotes]
  | cons c l ih =>
      by_cases hc : c = q
      · subst hc
        rw [doubleQuotes_cons_self, List.cons_append, List.cons_append,
          undoubleQuotes, if_pos rfl, if_pos rfl, ih]
        rfl
      · rw [doubleQuotes_cons_of_ne hc, List.cons_append,
          undoubleQuotes_cons_of_ne hc, ih]
        rfl

@[simp] theorem mem_doubleQuotes : c ∈ doubleQuotes q l ↔ c ∈ l := by
  have hmem : ∀ d, c ∈ (if d = q then [q, q] else [d]) ↔ c = d := by
    intro d
    split
    next h => simp [h]
    next => exact List.mem_singleton
  simp [doubleQuotes, List.mem_flatMap, hmem]

/-- Undoing the doubling makes nothing up. -/
theorem subset_of_undoubleQuotes {text : List α}
    (h : undoubleQuotes q l = some text) : text ⊆ l := by
  induction l using undoubleQuotes.induct q generalizing text with
  | case1 => cases h
  | case2 =>
      rw [undoubleQuotes, if_pos rfl] at h
      cases h
      exact List.nil_subset _
  | case3 c hc =>
      rw [undoubleQuotes, if_neg hc] at h
      cases h
  | case4 cs ih =>
      rw [undoubleQuotes, if_pos rfl, if_pos rfl] at h
      obtain ⟨text', htext', rfl⟩ := Option.map_eq_some_iff.mp h
      exact List.cons_subset_cons q
        (List.Subset.trans (ih htext') (List.subset_cons_self _ _))
  | case5 d cs hd =>
      rw [undoubleQuotes, if_pos rfl, if_neg hd] at h
      cases h
  | case6 c d cs hc ih =>
      rw [undoubleQuotes, if_neg hc] at h
      obtain ⟨text', htext', rfl⟩ := Option.map_eq_some_iff.mp h
      exact List.cons_subset_cons c (ih htext')

/-! ## Pieces -/

/-- Splitting passes over `l`: its quotes are closed and no separator stands
outside them. -/
def Sealed (sep q : α) (l : List α) : Prop :=
  ∀ rest, splitOutside sep q false (l ++ rest) =
    (splitOutside sep q false rest).modifyHead (l ++ ·)

theorem Sealed.nil : Sealed sep q [] := fun rest => by
  cases h : splitOutside sep q false rest <;> simp [h]

theorem Sealed.append {l' : List α} (h : Sealed sep q l)
    (h' : Sealed sep q l') : Sealed sep q (l ++ l') := fun rest => by
  rw [List.append_assoc, h, h', List.modifyHead_modifyHead]
  exact congrArg (List.modifyHead · _)
    (funext fun piece => (List.append_assoc l l' piece).symm)

theorem Sealed.of_notMem (hsep : sep ∉ l) (hq : q ∉ l) : Sealed sep q l := by
  induction l with
  | nil => exact .nil
  | cons c l ih =>
      obtain ⟨hcsep, hsep⟩ := List.ne_and_not_mem_of_not_mem_cons hsep
      obtain ⟨hcq, hq⟩ := List.ne_and_not_mem_of_not_mem_cons hq
      intro rest
      rw [List.cons_append, splitOutside, if_neg fun h => hcsep h.1.symm,
        if_neg fun h => hcq h.symm, ih hsep hq, List.modifyHead_modifyHead]
      rfl

/-- Inside quotes the separator is skipped. -/
theorem splitOutside_inside (hne : q ≠ sep) (l rest : List α) :
    splitOutside sep q true (doubleQuotes q l ++ q :: rest) =
      (splitOutside sep q false rest).modifyHead
        (doubleQuotes q l ++ q :: ·) := by
  induction l with
  | nil => simp [doubleQuotes, splitOutside]
  | cons c l ih =>
      by_cases hc : c = q
      · subst hc
        simp [doubleQuotes_cons_self, splitOutside, hne, ih,
          List.modifyHead_modifyHead, Function.comp_def]
      · simp [doubleQuotes_cons_of_ne hc, splitOutside, hc, ih,
          List.modifyHead_modifyHead, Function.comp_def]

theorem Sealed.quoted (hne : q ≠ sep) (l : List α) :
    Sealed sep q (q :: doubleQuotes q l ++ [q]) := fun rest => by
  rw [List.cons_append, List.cons_append, splitOutside,
    if_neg fun h => hne h.1, if_pos rfl, List.append_assoc,
    List.singleton_append]
  simp [splitOutside_inside hne, List.modifyHead_modifyHead,
    Function.comp_def]

theorem splitOutside_of_sealed (h : Sealed sep q l) :
    splitOutside sep q false l = [l] := by
  have hwhole := h []
  rw [List.append_nil] at hwhole
  rw [hwhole]
  simp [splitOutside]

theorem splitOutside_cons_of_sealed (h : Sealed sep q l) :
    splitOutside sep q false (l ++ sep :: rest) =
      l :: splitOutside sep q false rest := by
  rw [h]
  simp [splitOutside]

theorem Sealed.intercalate {comma : α} {ls : List (List α)}
    (hcomma : Sealed sep q [comma]) (h : ∀ l ∈ ls, Sealed sep q l) :
    Sealed sep q ([comma].intercalate ls) := by
  induction ls with
  | nil => exact .nil
  | cons l ls ih =>
      obtain ⟨hl, hls⟩ := List.forall_mem_cons.mp h
      cases ls with
      | nil => simpa using hl
      | cons l' ls =>
          rw [List.intercalate_cons_cons]
          exact (hl.append hcomma).append (ih hls)

/-- Joining with the separator is undone. -/
theorem splitOutside_intercalate {ls : List (List α)} (hnil : ls ≠ [])
    (h : ∀ l ∈ ls, Sealed sep q l) :
    splitOutside sep q false ([sep].intercalate ls) = ls := by
  induction ls with
  | nil => exact absurd rfl hnil
  | cons l ls ih =>
      obtain ⟨hl, hls⟩ := List.forall_mem_cons.mp h
      cases ls with
      | nil => simpa using splitOutside_of_sealed hl
      | cons l' ls =>
          rw [List.intercalate_cons_cons, List.append_assoc,
            List.singleton_append, splitOutside_cons_of_sealed hl,
            ih (List.cons_ne_nil _ _) hls]

/-- Splitting makes nothing up. -/
theorem subset_of_mem_splitOutside {inside : Bool} {piece : List α}
    (h : piece ∈ splitOutside sep q inside l) : piece ⊆ l := by
  induction l generalizing inside piece with
  | nil =>
      rw [splitOutside, List.mem_singleton] at h
      rw [h]
      exact List.nil_subset _
  | cons c cs ih =>
      rw [splitOutside] at h
      split at h
      · rcases List.mem_cons.mp h with rfl | h
        · exact List.nil_subset _
        · exact List.Subset.trans (ih h) (List.subset_cons_self _ _)
      · cases hpieces :
            splitOutside sep q (if c = q then !inside else inside) cs with
        | nil =>
            rw [hpieces] at h
            cases h
        | cons first others =>
            rw [hpieces, List.modifyHead_cons] at h
            rcases List.mem_cons.mp h with rfl | h
            · exact List.cons_subset_cons c
                (ih (hpieces ▸ List.mem_cons_self))
            · have hmem : piece ∈
                  splitOutside sep q (if c = q then !inside else inside) cs :=
                hpieces ▸ List.mem_cons_of_mem _ h
              exact List.Subset.trans (ih hmem) (List.subset_cons_self _ _)

/-! ## Tokens between marks -/

/-- The text of pieces that are in turn plain and tokens.  An empty token
stands for the mark, a token without a meaning for itself. -/
def expandPieces (mark : α) (meaning : List α → Option (List α)) :
    List (List α) → List α
  | [] => []
  | [text] => text
  | [text, token] => text ++ mark :: token
  | text :: [] :: next :: rest =>
      text ++ mark :: expandPieces mark meaning (next :: rest)
  | text :: token :: next :: rest =>
      text ++ (meaning token).getD (mark :: token ++ [mark]) ++
        expandPieces mark meaning (next :: rest)

/-- Replace what stands between two marks by its meaning. -/
def expand (mark : α) (meaning : List α → Option (List α)) (l : List α) :
    List α :=
  expandPieces mark meaning (l.splitOn mark)

variable {mark : α} {meaning : List α → Option (List α)}

theorem expand_of_notMem (h : mark ∉ l) : expand mark meaning l = l := by
  rw [expand, List.splitOn_eq_singleton h, expandPieces]

theorem expand_token {token text : List α} (hne : token ≠ [])
    (htoken : mark ∉ token) (hrest : mark ∉ rest)
    (hmeaning : meaning token = some text) :
    expand mark meaning (mark :: token ++ mark :: rest) = text ++ rest := by
  have hnil : mark ∉ ([] : List α) := List.not_mem_nil
  have hfirst := List.splitOn_append_cons_self_of_not_mem hnil
    (token ++ mark :: rest)
  rw [List.splitOn_append_cons_self_of_not_mem htoken,
    List.splitOn_eq_singleton hrest] at hfirst
  obtain ⟨c, cs, rfl⟩ := List.exists_cons_of_ne_nil hne
  have hsplit : (mark :: (c :: cs) ++ mark :: rest).splitOn mark =
      [[], c :: cs, rest] := hfirst
  rw [expand, hsplit, expandPieces, hmeaning]
  · rfl
  · exact List.cons_ne_nil c cs

end TympanApo.Support
