/-
A round robin over an ordered set.

The members stand in their order, and each turn goes on behind a mark: first the members
above the mark, then the others.  A turn that serves a prefix of this order and leaves its
mark at the last member served turns the order by exactly that prefix, so a member at
distance `d` is served within `d + 1` turns.
-/
import Mathlib.Data.List.Sort

namespace InvestmentPlatform.RoundRobin

open List

variable {α : Type} [LinearOrder α]

/-- The members of an ordered list, from behind the mark. -/
def turn (l : List α) : Option α → List α
  | none => l
  | some mark => (l.filter fun a => mark < a) ++ l.filter fun a => a ≤ mark

theorem turn_perm (l : List α) (mark : Option α) : (turn l mark).Perm l := by
  cases mark with
  | none => exact List.Perm.refl l
  | some mark =>
    have h := filter_append_perm (fun a => decide (mark < a)) l
    have hcongr : (l.filter fun a => !decide (mark < a)) = l.filter fun a => decide (a ≤ mark) := by
      refine filter_congr fun a _ => ?_
      rw [← decide_not]
      exact decide_eq_decide.mpr not_lt
    rw [hcongr] at h
    exact h

/-- A mark between two parts of the order swaps them. -/
theorem turn_some {low high : List α} {mark : α} (hlow : ∀ a ∈ low, a ≤ mark)
    (hhigh : ∀ a ∈ high, mark < a) : turn (low ++ high) (some mark) = high ++ low := by
  have habove : (low.filter fun a => decide (mark < a)) = [] :=
    filter_eq_nil_iff.mpr fun a ha => by simpa using hlow a ha
  have hbelow : (high.filter fun a => decide (a ≤ mark)) = [] :=
    filter_eq_nil_iff.mpr fun a ha => by simpa using hhigh a ha
  have hkeepLow : (low.filter fun a => decide (a ≤ mark)) = low :=
    filter_eq_self.mpr fun a ha => by simpa using hlow a ha
  have hkeepHigh : (high.filter fun a => decide (mark < a)) = high :=
    filter_eq_self.mpr fun a ha => by simpa using hhigh a ha
  simp only [turn, filter_append, habove, hbelow, hkeepLow, hkeepHigh, nil_append, append_nil]

variable {l : List α}

/-- Every mark cuts the order in two. -/
theorem filter_le_append_filter_lt (h : l.Pairwise (· < ·)) (mark : α) :
    (l.filter fun a => a ≤ mark) ++ (l.filter fun a => mark < a) = l := by
  induction l with
  | nil => rfl
  | cons a l ih =>
    rw [pairwise_cons] at h
    by_cases ha : a ≤ mark
    · simpa [ha, not_lt.mpr ha] using ih h.2
    · have hlt : mark < a := not_le.mp ha
      have hbelow : (l.filter fun b => decide (b ≤ mark)) = [] :=
        filter_eq_nil_iff.mpr fun b hb => by simpa using hlt.trans (h.1 b hb)
      have habove : (l.filter fun b => decide (mark < b)) = l :=
        filter_eq_self.mpr fun b hb => by simpa using hlt.trans (h.1 b hb)
      simp [ha, hlt, hbelow, habove]

theorem turn_cut (h : l.Pairwise (· < ·)) (mark : Option α) :
    ∃ low high, l = low ++ high ∧ turn l mark = high ++ low := by
  cases mark with
  | none => exact ⟨[], l, rfl, by simp [turn]⟩
  | some mark => exact ⟨_, _, (filter_le_append_filter_lt h mark).symm, rfl⟩

variable {mark : Option α} {a : α}

/-- Serving up to `a` and leaving the mark there turns the order by what was served. -/
theorem turn_next (h : l.Pairwise (· < ·)) {served rest : List α}
    (hturn : turn l mark = served ++ a :: rest) :
    turn l (some a) = rest ++ (served ++ [a]) := by
  have key : ∀ {low high : List α}, l = low ++ a :: high →
      turn l (some a) = high ++ (low ++ [a]) := by
    intro low high hl
    have hl' : l = (low ++ [a]) ++ high := by rw [hl, List.append_assoc]; rfl
    rw [hl, pairwise_append, pairwise_cons] at h
    rw [hl']
    refine turn_some ?_ h.2.1.1
    intro b hb
    rcases mem_append.mp hb with hb | hb
    · exact (h.2.2 b hb a mem_cons_self).le
    · exact (mem_singleton.mp hb).le
  obtain ⟨low, high, hcut, hcuts⟩ := turn_cut h mark
  rw [hcuts] at hturn
  rcases append_eq_append_iff.mp hturn with ⟨more, hserved, hlow⟩ | ⟨more, hhigh, hrest⟩
  · -- the mark fell in the lower part
    have hl : l = more ++ a :: (rest ++ high) := by rw [hcut, hlow]; simp
    rw [key hl, hserved]
    simp
  · cases more with
    | nil =>
      have hl : l = [] ++ a :: (rest ++ high) := by
        rw [hcut, ← show a :: rest = low by simpa using hrest]
        simp
      rw [key hl, hhigh]
      simp
    | cons b more =>
      rw [cons_append, List.cons.injEq] at hrest
      obtain ⟨rfl, hrest⟩ := hrest
      have hl : l = (low ++ served) ++ a :: more := by rw [hcut, hhigh]; simp
      rw [key hl, hrest]
      simp

/-- A turn serves a prefix of the order behind the mark, at least one member of a non-empty
one, and leaves the mark at the last member served. -/
structure Serves (l : List α) (mark : Option α) (served : List α) (mark' : Option α) : Prop where
  isPrefix : served <+: turn l mark
  nonempty : l ≠ [] → served ≠ []
  marks : served ≠ [] → mark' = served.getLast?

theorem Serves.turn_eq {served : List α} {mark' : Option α} (h : l.Pairwise (· < ·))
    (hl : l ≠ []) (hserves : Serves l mark served mark') :
    ∃ rest, turn l mark = served ++ rest ∧ turn l mark' = rest ++ served := by
  obtain ⟨rest, hrest⟩ := hserves.isPrefix
  have hmark := hserves.marks (hserves.nonempty hl)
  rcases eq_nil_or_concat served with hnil | ⟨init, last, hserved⟩
  · exact absurd hnil (hserves.nonempty hl)
  · rw [concat_eq_append] at hserved
    rw [hserved] at hrest hmark ⊢
    rw [getLast?_concat] at hmark
    refine ⟨rest, hrest.symm, ?_⟩
    rw [hmark]
    exact turn_next h (by rw [← hrest, List.append_assoc]; rfl)

/-- Turns one after the other, each from the mark the one before left. -/
def Turns (l : List α) : Option α → List (List α × Option α) → Prop
  | _, [] => True
  | mark, (served, mark') :: rest => Serves l mark served mark' ∧ Turns l mark' rest

/-- A member with `before.length` members before it is served in that many turns and one. -/
theorem served_of_position (h : l.Pairwise (· < ·))
    (turns : List (List α × Option α)) {before after : List α}
    (hturn : turn l mark = before ++ a :: after) (hturns : Turns l mark turns)
    (hlength : before.length < turns.length) : ∃ t ∈ turns, a ∈ t.1 := by
  have hl : l ≠ [] := by
    intro hnil
    have hperm := turn_perm l mark
    rw [hturn, hnil] at hperm
    simp at hperm
  induction turns generalizing mark before after with
  | nil => simp at hlength
  | cons t rest ih =>
    obtain ⟨served, mark'⟩ := t
    obtain ⟨hserves, hrest⟩ := hturns
    obtain ⟨behind, hnow, hnext⟩ := hserves.turn_eq h hl
    rw [hturn] at hnow
    rcases append_eq_append_iff.mp hnow with ⟨more, hserved, hmore⟩ | ⟨more, hbefore, hmore⟩
    · cases more with
      | nil =>
        -- everything before `a` was served, and `a` is next
        rw [append_nil] at hserved
        rw [nil_append] at hmore
        rw [← hmore, cons_append] at hnext
        have hfirst : turn l mark' = [] ++ a :: (after ++ served) := hnext
        have hpos : 0 < rest.length := by
          have hne := hserves.nonempty hl
          rw [hserved] at hne
          have hbefore := length_pos_of_ne_nil hne
          simp only [length_cons] at hlength
          omega
        obtain ⟨t, ht, ha⟩ := ih hfirst hrest hpos
        exact ⟨t, mem_cons_of_mem _ ht, ha⟩
      | cons b more =>
        have hb : a = b := by
          rw [cons_append, List.cons.injEq] at hmore
          exact hmore.1
        exact ⟨(served, mark'), mem_cons_self, by rw [hserved, ← hb]; simp⟩
    · -- `a` stands behind what was served
      have hne := length_pos_of_ne_nil (hserves.nonempty hl)
      rw [hmore, List.append_assoc, cons_append] at hnext
      have hless : more.length < rest.length := by
        rw [hbefore, length_append, length_cons] at hlength
        omega
      obtain ⟨t, ht, ha⟩ := ih hnext hrest hless
      exact ⟨t, mem_cons_of_mem _ ht, ha⟩

/-- **Nobody starves.**  As many turns as there are members serve every member. -/
theorem served_within (h : l.Pairwise (· < ·)) (ha : a ∈ l) {turns : List (List α × Option α)}
    (hturns : Turns l mark turns) (hlength : l.length ≤ turns.length) : ∃ t ∈ turns, a ∈ t.1 := by
  have hperm := turn_perm l mark
  obtain ⟨before, after, hturn⟩ := append_of_mem (hperm.mem_iff.mpr ha)
  have hcount : before.length < l.length := by
    rw [← hperm.length_eq, hturn, length_append, length_cons]
    omega
  exact served_of_position h turns hturn hturns (by omega)

end InvestmentPlatform.RoundRobin
