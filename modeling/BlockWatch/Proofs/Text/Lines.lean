import BlockWatch.Text.Blank
import Mathlib.Data.List.Forall2

/-!
# Lines of a file

Normative source: SPEC_FULL.md, section 10.4: "one address per line, `#` comments and blank lines
ignored".

A line of a file ends at a line feed, or at a carriage return and a line feed; after the last end
there is no further line (`fileLines`).  The pieces between line feeds that the program goes through
(`Text.lines`) differ from these in the carriage returns and in an empty piece at the end.  Trimmed,
they are the same lines and at most one empty text more (`map_trim_lines`), and blank lines do not
count.

Texts without blanks are the lines of some file (`exists_fileLines`).
-/

set_option autoImplicit false

namespace BlockWatch.Text

/-! ## Trimming -/

theorem trim_concat_of_blank {c : Char} (h : isBlank c = true) (text : List Char) :
    trim (text ++ [c]) = trim text := by
  unfold trim trimLeft
  rw [List.dropWhile_append]
  split
  · rename_i hblank
    rw [List.isEmpty_iff.mp hblank, List.dropWhile_cons_of_pos h, List.dropWhile_nil]
  · rw [List.reverse_append, List.reverse_singleton, List.singleton_append,
      List.dropWhile_cons_of_pos h]

theorem trim_of_forall_not_blank {text : List Char} (h : ∀ c ∈ text, isBlank c = false) :
    trim text = text := by
  have hleft : ∀ {part : List Char}, (∀ c ∈ part, isBlank c = false) → trimLeft part = part := by
    intro part hpart
    cases part with
    | nil => rfl
    | cons c rest => exact List.dropWhile_cons_of_neg (by simp [hpart c List.mem_cons_self])
  unfold trim
  rw [hleft h, hleft fun c hc => h c (List.mem_reverse.mp hc), List.reverse_reverse]

/-! ## Lines -/

/-- The lines of a file. -/
def fileLines : List Char → List (List Char)
  | [] => []
  | '\n' :: rest => [] :: fileLines rest
  | '\r' :: '\n' :: rest => [] :: fileLines rest
  | c :: rest =>
      match fileLines rest with
      | [] => [[c]]
      | line :: others => (c :: line) :: others

example : fileLines "a\r\n\n\r b\r".toList = [['a'], [], ['\r', ' ', 'b', '\r']] := by decide

theorem lines_cons_of_ne {c : Char} (h : ¬ c = '\n') (rest : List Char) :
    lines (c :: rest) =
      match lines rest with
      | [] => [[c]]
      | piece :: others => (c :: piece) :: others :=
  if_neg (by simpa using h)

/-- The pieces between line feeds are the lines, some with a carriage return at the end, and then
nothing or a piece that is no line. -/
theorem lines_eq_append (text : List Char) :
    ∃ full last, lines text = full ++ last ∧ (last = [] ∨ last = [[]]) ∧
      List.Forall₂ (fun line piece => piece = line ∨ piece = line ++ ['\r']) (fileLines text)
        full := by
  fun_induction fileLines text with
  | case1 => exact ⟨[], [[]], rfl, Or.inr rfl, .nil⟩
  | case2 rest ih =>
      obtain ⟨full, last, hlines, hlast, hfull⟩ := ih
      exact ⟨[] :: full, last, congrArg ([] :: ·) hlines, hlast, .cons (Or.inl rfl) hfull⟩
  | case3 rest ih =>
      obtain ⟨full, last, hlines, hlast, hfull⟩ := ih
      exact ⟨['\r'] :: full, last, congrArg (['\r'] :: ·) hlines, hlast, .cons (Or.inr rfl) hfull⟩
  | case4 c rest hfeed hreturn hnone ih =>
      obtain ⟨full, last, hlines, hlast, hfull⟩ := ih
      obtain rfl := List.forall₂_nil_left_iff.mp (hnone ▸ hfull)
      refine ⟨[[c]], [], ?_, Or.inl rfl, .cons (Or.inl rfl) .nil⟩
      rw [lines_cons_of_ne hfeed, hlines]
      rcases hlast with rfl | rfl <;> rfl
  | case5 c rest hfeed hreturn line others hsome ih =>
      obtain ⟨full, last, hlines, hlast, hfull⟩ := ih
      rw [hsome] at hfull
      cases hfull with
      | cons hpiece hrest =>
          rename_i piece pieces
          refine ⟨(c :: piece) :: pieces, last, ?_, hlast, .cons ?_ hrest⟩
          · rw [lines_cons_of_ne hfeed, hlines]
            rfl
          · exact hpiece.imp (congrArg (c :: ·)) (congrArg (c :: ·))

/-- Trimmed, the pieces between line feeds are the lines and at most one empty text more. -/
theorem map_trim_lines (text : List Char) :
    ∃ last, (lines text).map trim = (fileLines text).map trim ++ last ∧
      ∀ line ∈ last, line = [] := by
  obtain ⟨full, last, hlines, hlast, hfull⟩ := lines_eq_append text
  have htrimmed : (fileLines text).map trim = full.map trim := by
    refine List.forall₂_eq_eq_eq ▸ (List.forall₂_map_left_iff.mpr
      (List.forall₂_map_right_iff.mpr (hfull.imp ?_)))
    rintro line piece (rfl | rfl)
    · rfl
    · exact (trim_concat_of_blank (by decide) line).symm
  refine ⟨last.map trim, by rw [hlines, List.map_append, htrimmed], ?_⟩
  rcases hlast with rfl | rfl
  · simp
  · simp [trim, trimLeft]

theorem fileLines_append_feed {line : List Char} (h : ∀ c ∈ line, c ≠ '\n' ∧ c ≠ '\r')
    (rest : List Char) : fileLines (line ++ '\n' :: rest) = line :: fileLines rest := by
  induction line with
  | nil => rfl
  | cons c line ih =>
      obtain ⟨hfeed, hreturn⟩ := h c List.mem_cons_self
      rw [List.cons_append, fileLines, ih fun d hd => h d (List.mem_cons_of_mem c hd)]
      · exact hfeed
      · exact fun _ hc _ => hreturn hc

theorem fileLines_flatMap {lines : List (List Char)}
    (h : ∀ line ∈ lines, ∀ c ∈ line, c ≠ '\n' ∧ c ≠ '\r') :
    fileLines (lines.flatMap (· ++ ['\n'])) = lines := by
  induction lines with
  | nil => rfl
  | cons line rest ih =>
      rw [List.flatMap_cons, List.append_assoc, List.singleton_append,
        fileLines_append_feed (h line List.mem_cons_self),
        ih fun other hother => h other (List.mem_cons_of_mem line hother)]

/-- Texts without blanks are the lines of some file. -/
theorem exists_fileLines {lines : List String}
    (h : ∀ line ∈ lines, ∀ c ∈ line.toList, isBlank c = false) :
    ∃ text : String, (fileLines text.toList).map String.ofList = lines := by
  refine ⟨String.ofList ((lines.map String.toList).flatMap (· ++ ['\n'])), ?_⟩
  have hends : ∀ line ∈ lines.map String.toList, ∀ c ∈ line, c ≠ '\n' ∧ c ≠ '\r' := by
    rw [List.forall_mem_map]
    intro line hline c hc
    have hunblank := h line hline c hc
    constructor
    · rintro rfl
      exact absurd hunblank (by decide)
    · rintro rfl
      exact absurd hunblank (by decide)
  rw [String.toList_ofList, fileLines_flatMap hends, List.map_map]
  exact (List.map_congr_left fun _ _ => String.ofList_toList).trans (List.map_id _)

end BlockWatch.Text
