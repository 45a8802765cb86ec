import Mathlib.Data.List.Basic

namespace Framing

variable {α : Type} [DecidableEq α]

/-- The scan ends a frame at each run of `width` marks and also returns the open rest. -/
def scan (mark : α) (width : Nat) : List α → Nat → List α → List (List α) × List α
  | opened, seen, [] => ([], opened ++ List.replicate seen mark)
  | opened, seen, symbol :: rest =>
      if symbol = mark then
        if seen + 1 = width then
          (opened :: (scan mark width [] 0 rest).1, (scan mark width [] 0 rest).2)
        else scan mark width opened (seen + 1) rest
      else scan mark width (opened ++ List.replicate seen mark ++ [symbol]) 0 rest

/-- A stream splits at each terminator of `width` marks. -/
def split (mark : α) (width : Nat) (stream : List α) : List (List α) × List α :=
  scan mark width [] 0 stream

/-- The encoder ends each payload with its terminator. -/
def join (mark : α) (width : Nat) (payloads : List (List α)) : List α :=
  payloads.flatMap fun payload => payload ++ List.replicate width mark

variable {mark : α} {width : Nat}

/-- A payload without marks only extends the open frame. -/
theorem scan_payload (opened payload rest : List α) (clean : mark ∉ payload) :
    scan mark width opened 0 (payload ++ rest) = scan mark width (opened ++ payload) 0 rest := by
  induction payload generalizing opened with
  | nil => rw [List.nil_append, List.append_nil]
  | cons symbol payload ih =>
      have different : symbol ≠ mark := fun same => clean (same ▸ List.mem_cons_self)
      rw [List.cons_append, scan, if_neg different, List.replicate_zero, List.append_nil,
        ih _ fun member => clean (List.mem_cons_of_mem _ member), List.append_assoc]
      rfl

/-- The last mark of a terminator closes the frame. -/
theorem scan_terminator (opened rest : List α) (missing seen : Nat) (positive : 0 < missing)
    (total : seen + missing = width) :
    scan mark width opened seen (List.replicate missing mark ++ rest) =
      (opened :: (split mark width rest).1, (split mark width rest).2) := by
  induction missing generalizing seen with
  | zero => exact absurd positive (Nat.lt_irrefl 0)
  | succ missing ih =>
      rw [List.replicate_succ, List.cons_append, scan, if_pos rfl]
      by_cases last : missing = 0
      · subst last
        rw [if_pos total]
        rfl
      · rw [if_neg (by omega)]
        exact ih (seen + 1) (Nat.pos_of_ne_zero last) (by omega)

/-- Splitting returns the payloads that were joined. -/
theorem split_join (positive : 0 < width) (payloads : List (List α))
    (clean : ∀ payload ∈ payloads, mark ∉ payload) :
    split mark width (join mark width payloads) = (payloads, []) := by
  induction payloads with
  | nil => rfl
  | cons payload payloads ih =>
      have rest := ih fun other member => clean other (List.mem_cons_of_mem _ member)
      rw [join, List.flatMap_cons, List.append_assoc, split,
        scan_payload [] payload _ (clean payload List.mem_cons_self), List.nil_append,
        scan_terminator payload _ width 0 positive (Nat.zero_add width)]
      change (payload :: (split mark width (join mark width payloads)).1,
        (split mark width (join mark width payloads)).2) = _
      rw [rest]

/-- A symbol that is no mark ends the run of marks before it. -/
theorem scan_append (opened : List α) (seen : Nat) (start rest : List α) (symbol : α) (different : symbol ≠ mark) :
    scan mark width opened seen (start ++ symbol :: rest) =
      ((scan mark width opened seen (start ++ [symbol])).1 ++
          (scan mark width (scan mark width opened seen (start ++ [symbol])).2 0 rest).1,
        (scan mark width (scan mark width opened seen (start ++ [symbol])).2 0 rest).2) := by
  induction start generalizing opened seen with
  | nil => simp [scan, different]
  | cons first start ih =>
      rw [List.cons_append, List.cons_append, scan, scan]
      by_cases same : first = mark
      · rw [if_pos same, if_pos same]
        by_cases last : seen + 1 = width
        · rw [if_pos last, if_pos last, ih [] 0]
          rfl
        · rw [if_neg last, if_neg last]
          exact ih opened (seen + 1)
      · rw [if_neg same, if_neg same]
        exact ih _ 0

/-- The frames of a stream are the frames of its first payload and of the rest. -/
theorem split_payload (positive : 0 < width) (start rest : List α) (symbol : α) (different : symbol ≠ mark) :
    split mark width (start ++ [symbol] ++ List.replicate width mark ++ rest) =
      ((split mark width (start ++ [symbol])).1 ++
          (split mark width (start ++ [symbol])).2 :: (split mark width rest).1,
        (split mark width rest).2) := by
  rw [List.append_assoc, List.append_assoc, List.singleton_append, split, scan_append _ _ _ _ _ different,
    scan_terminator _ rest width 0 positive (Nat.zero_add width)]
  rfl

omit [DecidableEq α] in
/-- A run of marks that a symbol ends is too short. -/
theorem not_prefix_replicate (seen : Nat) (rest : List α) (symbol : α) (different : symbol ≠ mark)
    (short : seen < width) : ¬ List.replicate width mark <+: List.replicate seen mark ++ symbol :: rest := by
  induction seen generalizing width with
  | zero =>
      obtain ⟨less, rfl⟩ : ∃ less, width = less + 1 := ⟨width - 1, by omega⟩
      rw [List.replicate_succ, List.replicate_zero, List.nil_append, List.cons_prefix_cons]
      exact fun both => different both.1.symm
  | succ seen ih =>
      obtain ⟨less, rfl⟩ : ∃ less, width = less + 1 := ⟨width - 1, by omega⟩
      rw [List.replicate_succ, List.replicate_succ, List.cons_append, List.cons_prefix_cons]
      exact fun both => ih (by omega) both.2

omit [DecidableEq α] in
theorem infix_replicate_iff (seen : Nat) (rest : List α) (symbol : α) (different : symbol ≠ mark)
    (short : seen < width) :
    List.replicate width mark <:+: List.replicate seen mark ++ symbol :: rest ↔
      List.replicate width mark <:+: rest := by
  induction seen with
  | zero =>
      have none : ¬ List.replicate width mark <+: symbol :: rest :=
        not_prefix_replicate 0 rest symbol different short
      rw [List.replicate_zero, List.nil_append, List.infix_cons_iff, or_iff_right none]
  | succ seen ih =>
      have none := not_prefix_replicate (seen + 1) rest symbol different short
      rw [List.replicate_succ, List.cons_append] at none ⊢
      rw [List.infix_cons_iff, or_iff_right none]
      exact ih (by omega)

/-- A payload stays one frame when it contains no terminator. -/
theorem scan_whole_iff (opened : List α) (seen : Nat) (payload : List α) (short : seen < width) :
    (scan mark width opened seen payload).1 = [] ↔
      ¬ List.replicate width mark <:+: List.replicate seen mark ++ payload := by
  induction payload generalizing opened seen with
  | nil =>
      have long : ¬ List.replicate width mark <:+: List.replicate seen mark ++ [] := by
        intro inside
        have bound := inside.length_le
        simp only [List.length_replicate, List.append_nil] at bound
        omega
      exact iff_of_true rfl long
  | cons symbol payload ih =>
      rw [scan]
      by_cases same : symbol = mark
      · have longer : List.replicate seen mark ++ symbol :: payload = List.replicate (seen + 1) mark ++ payload := by
          rw [same, List.replicate_succ', List.append_assoc, List.singleton_append]
        rw [if_pos same, longer]
        by_cases last : seen + 1 = width
        · rw [if_pos last, last]
          exact iff_of_false (List.cons_ne_nil _ _) fun outside => outside (List.prefix_append _ _).isInfix
        · rw [if_neg last]
          exact ih opened (seen + 1) (by omega)
      · rw [if_neg same, infix_replicate_iff seen payload symbol same short]
        exact ih _ 0 (by omega)

/-- One frame is the payload itself. -/
theorem scan_whole (opened : List α) (seen : Nat) (payload : List α)
    (whole : (scan mark width opened seen payload).1 = []) :
    (scan mark width opened seen payload).2 = opened ++ List.replicate seen mark ++ payload := by
  induction payload generalizing opened seen with
  | nil => rw [scan, List.append_nil]
  | cons symbol payload ih =>
      rw [scan] at whole ⊢
      by_cases same : symbol = mark
      · rw [if_pos same] at whole ⊢
        by_cases last : seen + 1 = width
        · rw [if_pos last] at whole
          exact absurd whole (List.cons_ne_nil _ _)
        · rw [if_neg last] at whole ⊢
          rw [ih _ _ whole, List.replicate_succ', same]
          simp only [List.append_assoc, List.singleton_append]
      · rw [if_neg same] at whole ⊢
        rw [ih _ _ whole]
        simp only [List.replicate_zero, List.append_nil, List.append_assoc, List.singleton_append]

end Framing
