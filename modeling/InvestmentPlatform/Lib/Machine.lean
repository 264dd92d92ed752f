/-
Labelled machines and what holds along their runs.

A machine is a set of start states and a step relation whose labels say what was
done and what was answered.  Everything a store's protocol promises is one of three
things: an invariant of the reachable states, a property that once true stays true,
or a bound on how often a label can occur.  The rules for the three are proved here
once, by induction on the derivation or on the run, so that a protocol has only to
say what a single step does.
-/
import Mathlib.Data.List.Count
import Mathlib.Data.List.Induction

namespace InvestmentPlatform

open Option List

/-- A transition system with labelled steps. -/
structure Machine (S L : Type) where
  init : S → Prop
  step : S → L → S → Prop

namespace Machine

variable {S L : Type} {m : Machine S L}

/-- A state some sequence of steps leads to from a start state. -/
inductive Reachable (m : Machine S L) : S → Prop
  | init {s : S} (h : m.init s) : Reachable m s
  | step {s s' : S} {l : L} (h : Reachable m s) (hstep : m.step s l s') : Reachable m s'

/-- `Run m s trace s'`: the labels of `trace`, in order, lead from `s` to `s'`. -/
inductive Run (m : Machine S L) : S → List L → S → Prop
  | nil (s : S) : Run m s [] s
  | cons {s mid s' : S} {l : L} {trace : List L}
      (hstep : m.step s l mid) (hrest : Run m mid trace s') : Run m s (l :: trace) s'

/-! ### Invariants of the reachable states -/

/-- What the start states have and every step keeps, every reachable state has. -/
theorem Reachable.invariant {I : S → Prop} (hinit : ∀ s, m.init s → I s)
    (hkeep : ∀ s l s', I s → m.step s l s' → I s') {s : S} (h : m.Reachable s) : I s := by
  induction h with
  | init h => exact hinit _ h
  | step _ hstep ih => exact hkeep _ _ _ ih hstep

theorem Run.reachable {s s' : S} {trace : List L} (hrun : m.Run s trace s')
    (h : m.Reachable s) : m.Reachable s' := by
  induction hrun with
  | nil => exact h
  | cons hstep _ ih => exact ih (h.step hstep)

theorem Run.append {s mid s' : S} {front back : List L} (hfront : m.Run s front mid)
    (hback : m.Run mid back s') : m.Run s (front ++ back) s' := by
  induction hfront with
  | nil => exact hback
  | cons hstep _ ih => exact Run.cons hstep (ih hback)

/-- What relates the labels so far to the state, and is kept by every step, holds at the end of a
run. -/
theorem Run.logged {I : List L → S → Prop}
    (hkeep : ∀ past s l s', I past s → m.step s l s' → I (past ++ [l]) s') {past trace : List L}
    {s s' : S} (hrun : m.Run s trace s') (h : I past s) : I (past ++ trace) s' := by
  induction hrun generalizing past with
  | nil s => rwa [append_nil]
  | @cons s mid s' l trace hstep _ ih =>
    have hmid := ih (hkeep past s l mid h hstep)
    rwa [List.append_assoc, singleton_append] at hmid

/-! ### Properties that stay -/

/-- `Q` is kept by every step out of a reachable state. -/
def Stable (m : Machine S L) (Q : S → Prop) : Prop :=
  ∀ s l s', m.Reachable s → Q s → m.step s l s' → Q s'

theorem Run.stable {Q : S → Prop} (hQ : m.Stable Q) {s s' : S} {trace : List L}
    (hrun : m.Run s trace s') (h : m.Reachable s) (hs : Q s) : Q s' := by
  induction hrun with
  | nil => exact hs
  | cons hstep _ ih => exact ih (h.step hstep) (hQ _ _ _ h hs hstep)

/-- A preorder every step respects is respected by every run. -/
theorem Run.preorder {R : S → S → Prop} (hrefl : ∀ s, R s s)
    (htrans : ∀ a b c, R a b → R b c → R a c)
    (hstep : ∀ s l s', m.Reachable s → m.step s l s' → R s s') {s s' : S} {trace : List L}
    (hrun : m.Run s trace s') (h : m.Reachable s) : R s s' := by
  induction hrun with
  | nil => exact hrefl _
  | cons hone _ ih => exact htrans _ _ _ (hstep _ _ _ h hone) (ih (h.step hone))

/-! ### How often a label occurs -/

/-- Where a stable property rules a kind of label out, no later label is of that kind. -/
theorem Run.never {Q : S → Prop} {E : L → Prop} (hQ : m.Stable Q)
    (hbar : ∀ s l s', Q s → m.step s l s' → ¬ E l) {s s' : S} {trace : List L}
    (hrun : m.Run s trace s') (h : m.Reachable s) (hs : Q s) : ∀ l ∈ trace, ¬ E l := by
  induction hrun with
  | nil => simp
  | cons hstep _ ih =>
      intro l hl
      rcases mem_cons.mp hl with rfl | hl'
      · exact hbar _ _ _ hs hstep
      · exact ih (h.step hstep) (hQ _ _ _ h hs hstep) l hl'

/-- A label whose steps establish the stable property that bars it occurs at most once. -/
theorem Run.at_most_once {Q : S → Prop} {E : L → Prop} [DecidablePred E] (hQ : m.Stable Q)
    (hbar : ∀ s l s', Q s → m.step s l s' → ¬ E l)
    (hmake : ∀ s l s', m.step s l s' → E l → Q s') {s s' : S} {trace : List L}
    (hrun : m.Run s trace s') (h : m.Reachable s) :
    trace.countP (fun l => decide (E l)) ≤ 1 := by
  induction hrun with
  | nil => simp
  | @cons s mid s' l trace hstep hrest ih =>
      by_cases hl : E l
      · -- The first such label: the rest of the run is barred from it.
        have hrest0 : trace.countP (fun l => decide (E l)) = 0 := by
          rw [countP_eq_zero]
          intro k hk
          simpa using hrest.never hQ hbar (h.step hstep) (hmake _ _ _ hstep hl) k hk
        rw [countP_cons, hrest0]
        split <;> omega
      · rw [countP_cons, if_neg (by simpa using hl)]
        exact ih (h.step hstep)

/-! ### Machines that do not wedge -/

/-- While something is pending, the machine waits for its surroundings or can take a step of its
own. -/
def Live (m : Machine S L) (pending waits : S → Prop) (own : L → Prop) : Prop :=
  ∀ s, m.Reachable s → pending s → waits s ∨ ∃ l s', own l ∧ m.step s l s'

/-! ### Runs whose steps all meet a condition -/

/-- The machine that takes only the steps whose label meets `P` where it is taken. -/
def restrict (m : Machine S L) (P : S → L → Prop) : Machine S L where
  init := m.init
  step s l s' := P s l ∧ m.step s l s'

/-- Where the condition is weaker, at least as much is reached. -/
theorem Reachable.weaken {P Q : S → L → Prop} (hle : ∀ s l, P s l → Q s l) {s : S}
    (h : (m.restrict P).Reachable s) : (m.restrict Q).Reachable s := by
  induction h with
  | init h => exact Reachable.init h
  | step _ hstep ih => exact Reachable.step ih ⟨hle _ _ hstep.1, hstep.2⟩

/-- A list of steps that are all taken where they may be is a run. -/
theorem run_of_guarded {P : S → L → Prop} [∀ s l, Decidable (P s l)] {exec : S → L → Option S}
    (hexec : ∀ s l s', exec s l = some s' → m.step s l s') {ls : List L} {s s' : S}
    (h : ls.foldlM (fun s l => if P s l then exec s l else none) s = some s') :
    (m.restrict P).Run s ls s' := by
  induction ls generalizing s with
  | nil =>
      cases h
      exact Run.nil _
  | cons l ls ih =>
      rw [foldlM_cons] at h
      obtain ⟨mid, hmid, hrest⟩ := bind_eq_some_iff.mp h
      split at hmid
      · rename_i hP
        exact Run.cons ⟨hP, hexec _ _ _ hmid⟩ (ih hrest)
      · cases hmid

theorem run_of_foldlM {exec : S → L → Option S}
    (hexec : ∀ s l s', exec s l = some s' → m.step s l s') {ls : List L} {s s' : S}
    (h : ls.foldlM exec s = some s') : m.Run s ls s' := by
  induction ls generalizing s with
  | nil =>
      cases h
      exact Run.nil _
  | cons l ls ih =>
      rw [foldlM_cons] at h
      obtain ⟨mid, hmid, hrest⟩ := bind_eq_some_iff.mp h
      exact Run.cons (hexec _ _ _ hmid) (ih hrest)

/-! ### Machines given by a guarded executable step -/

/-- The machine of a step function that answers nothing: `none` where the step is not
admissible. -/
def ofPartial (start : S) (exec : S → L → Option S) : Machine S L where
  init s := s = start
  step s l s' := exec s l = some s'

theorem foldlM_run {start : S} {exec : S → L → Option S} {ls : List L} {s s' : S}
    (h : ls.foldlM exec s = some s') : (ofPartial start exec).Run s ls s' :=
  run_of_foldlM (fun _ _ _ hstep => hstep) h

/-- What a list of admissible steps leads to from the start state is reachable. -/
theorem foldlM_reachable {start : S} {exec : S → L → Option S} {ls : List L} {s' : S}
    (h : ls.foldlM exec start = some s') : (ofPartial start exec).Reachable s' :=
  (foldlM_run h).reachable (Reachable.init rfl)

variable {Op Out : Type}

/-- The machine of a step function: `none` where the operation is not admissible, else the
answer and the next state.  A label is the operation together with its answer. -/
def ofStep (start : S) (exec : S → Op → Option (Out × S)) : Machine S (Op × Out) where
  init s := s = start
  step s l s' := exec s l.1 = some (l.2, s')

/-- Drive a step function through a list of operations, collecting the labels. -/
def replay (exec : S → Op → Option (Out × S)) : S → List Op → Option (List (Op × Out) × S)
  | s, [] => some ([], s)
  | s, op :: ops =>
      match exec s op with
      | none => none
      | some (out, mid) => (replay exec mid ops).map fun r => ((op, out) :: r.1, r.2)

theorem replay_run {start : S} {exec : S → Op → Option (Out × S)} {ops : List Op} :
    ∀ {s : S} {r : List (Op × Out) × S}, replay exec s ops = some r →
      (ofStep start exec).Run s r.1 r.2 := by
  induction ops with
  | nil =>
      intro s r h
      simp only [replay, some.injEq] at h
      subst h
      exact Run.nil s
  | cons op ops ih =>
      intro s r h
      rw [replay] at h
      cases hex : exec s op with
      | none => simp [hex] at h
      | some res =>
          obtain ⟨out, mid⟩ := res
          simp only [hex, map_eq_some_iff] at h
          obtain ⟨rest, hrest, rfl⟩ := h
          exact Run.cons hex (ih hrest)

/-- What a replay from the start state ends in is reachable. -/
theorem replay_reachable {start : S} {exec : S → Op → Option (Out × S)} {ops : List Op}
    {r : List (Op × Out) × S} (h : replay exec start ops = some r) :
    (ofStep start exec).Reachable r.2 :=
  (replay_run h).reachable (Reachable.init rfl)

end Machine

end InvestmentPlatform

/-!
What a log says about its past.

A log is a list of events, the oldest first.  What is asked of an event often depends on an earlier
one: that it is the answer to it, or that it does not come while the earlier one is in force.
`Since` says that an event of one kind is in force, which none of another kind has ended; `Always`
says that every event stands to the log before it as a rule says.  Both are proved along a run one
event at a time, by the rules for a log that grows at its end.
-/

namespace InvestmentPlatform.History

variable {E : Type} {mark clear : E → Prop} {rule : List E → E → Prop} {log : List E} {e : E}

/-- Some event is of the kind `mark`, and none after it is of the kind `clear`. -/
def Since (mark clear : E → Prop) (log : List E) : Prop :=
  ∃ past event rest, log = past ++ event :: rest ∧ mark event ∧ ∀ later ∈ rest, ¬ clear later

/-- Every event stands to the log before it as the rule says. -/
def Always (rule : List E → E → Prop) (log : List E) : Prop :=
  ∀ past event rest, log = past ++ event :: rest → rule past event

/-- A log that ends in an event is split at that event or before it. -/
theorem split_concat {past rest : List E} {event : E} (h : log ++ [e] = past ++ event :: rest) :
    (past = log ∧ event = e ∧ rest = []) ∨
      ∃ rest', rest = rest' ++ [e] ∧ log = past ++ event :: rest' := by
  induction rest using List.reverseRecOn with
  | nil =>
    obtain ⟨hlog, hevent⟩ := List.append_inj' h rfl
    exact Or.inl ⟨hlog.symm, (List.cons.inj hevent).1.symm, rfl⟩
  | append_singleton rest' last _ =>
    rw [← List.cons_append, ← List.append_assoc] at h
    obtain ⟨hlog, hlast⟩ := List.append_inj' h rfl
    exact Or.inr ⟨rest', by rw [(List.cons.inj hlast).1], hlog⟩

theorem not_since_nil : ¬ Since mark clear ([] : List E) := by
  intro h
  obtain ⟨past, event, rest, hlog, -⟩ := h
  exact List.append_ne_nil_of_right_ne_nil past (List.cons_ne_nil event rest) hlog.symm

theorem since_concat :
    Since mark clear (log ++ [e]) ↔ mark e ∨ (Since mark clear log ∧ ¬ clear e) := by
  constructor
  · intro h
    obtain ⟨past, event, rest, hlog, hmark, hclear⟩ := h
    rcases split_concat hlog with ⟨-, hevent, -⟩ | ⟨rest', hrest, hold⟩
    · exact Or.inl (hevent ▸ hmark)
    · have hlast : e ∈ rest := hrest ▸ List.mem_append_right rest' (List.mem_singleton_self e)
      refine Or.inr ⟨⟨past, event, rest', hold, hmark, fun later hlater => ?_⟩, hclear e hlast⟩
      exact hclear later (hrest ▸ List.mem_append_left [e] hlater)
  · intro h
    rcases h with hmark | ⟨⟨past, event, rest, hold, hmark, hclear⟩, he⟩
    · exact ⟨log, e, [], rfl, hmark, fun later hlater => (List.not_mem_nil hlater).elim⟩
    · refine ⟨past, event, rest ++ [e], ?_, hmark, fun later hlater => ?_⟩
      · rw [hold, List.append_assoc, List.cons_append]
      · rcases List.mem_append.mp hlater with hin | hlast
        · exact hclear later hin
        · rw [List.mem_singleton.mp hlast]
          exact he

/-- An event of neither kind changes nothing. -/
theorem since_concat_of_not (hmark : ¬ mark e) (hclear : ¬ clear e) :
    Since mark clear (log ++ [e]) ↔ Since mark clear log := by
  rw [since_concat]
  exact ⟨fun h => (h.resolve_left hmark).1, fun h => Or.inr ⟨h, hclear⟩⟩

theorem always_nil : Always rule ([] : List E) := by
  intro past event rest hlog
  exact absurd hlog.symm (List.append_ne_nil_of_right_ne_nil past (List.cons_ne_nil event rest))

theorem always_concat : Always rule (log ++ [e]) ↔ Always rule log ∧ rule log e := by
  constructor
  · intro h
    refine ⟨fun past event rest hlog => ?_, h log e [] rfl⟩
    refine h past event (rest ++ [e]) ?_
    rw [hlog, List.append_assoc, List.cons_append]
  · intro h past event rest hlog
    rcases split_concat hlog with ⟨rfl, rfl, -⟩ | ⟨rest', -, hold⟩
    · exact h.2
    · exact h.1 past event rest' hold

end InvestmentPlatform.History
