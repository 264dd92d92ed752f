/-
Computations that may raise.

`Except` is how a computation that returns a value or raises an error is written.  The rules
here take such a computation apart: what a bind, a map or a loop returned comes from what its
parts returned, and an error that no part raises is not raised by the whole.
-/
import Mathlib.Data.List.Forall2

namespace InvestmentPlatform.Fallible

open List Option

variable {ε α β γ σ τ : Type}

/-- `if c: raise e`. -/
def raiseIf (c : Prop) [Decidable c] (e : ε) : Except ε Unit := if c then .error e else .ok ()

/-! ### What was returned -/

theorem raiseIf_eq_ok {c : Prop} [Decidable c] {e : ε} {u : Unit} : raiseIf c e = .ok u ↔ ¬ c := by
  by_cases h : c <;> simp [raiseIf, h]

variable {x : Except ε α} {b : β}

theorem bind_eq_ok {f : α → Except ε β} : x >>= f = .ok b ↔ ∃ a, x = .ok a ∧ f a = .ok b := by
  cases x with
  | error e => simp [bind, Except.bind]
  | ok a => simp [bind, Except.bind]

theorem map_eq_ok {f : α → β} : x.map f = .ok b ↔ ∃ a, x = .ok a ∧ f a = b := by
  cases x with
  | error e => simp [Except.map]
  | ok a => simp [Except.map]

variable {f : σ → β → Except ε σ} {s s' : σ}

/-- What a loop keeps from one element to the next, it has kept at its end. -/
theorem foldlM_rec (P : List β → σ → Prop)
    (hstep : ∀ b rest s s', P (b :: rest) s → f s b = .ok s' → P rest s')
    {l : List β} (hstart : P l s) (h : l.foldlM f s = .ok s') : P [] s' := by
  induction l generalizing s with
  | nil =>
      cases h
      exact hstart
  | cons b rest ih =>
      rw [foldlM_cons, bind_eq_ok] at h
      obtain ⟨next, hnext, hrest⟩ := h
      exact ih (hstep b rest s next hstart hnext) hrest

/-- Two loops over the same elements keep what each pair of their steps keeps. -/
theorem foldlM_rec₂ {g : τ → β → Except ε τ} (R : σ → τ → Prop)
    (hstep : ∀ b s t s' t', R s t → f s b = .ok s' → g t b = .ok t' → R s' t')
    {l : List β} {t t' : τ} (hstart : R s t) (hf : l.foldlM f s = .ok s')
    (hg : l.foldlM g t = .ok t') : R s' t' := by
  induction l generalizing s t with
  | nil =>
      cases hf
      cases hg
      exact hstart
  | cons b rest ih =>
      rw [foldlM_cons, bind_eq_ok] at hf hg
      obtain ⟨s₁, hs₁, hs⟩ := hf
      obtain ⟨t₁, ht₁, ht⟩ := hg
      exact ih (hstep b s t s₁ t₁ hstart hs₁ ht₁) hs ht

/-- What every step keeps and one element establishes holds at the end of the loop. -/
theorem foldlM_reaches {P : σ → Prop}
    (hkeep : ∀ c s s', P s → f s c = .ok s' → P s') (hset : ∀ s s', f s b = .ok s' → P s')
    {l : List β} (hmem : b ∈ l) (h : l.foldlM f s = .ok s') : P s' := by
  induction l generalizing s with
  | nil => cases hmem
  | cons c rest ih =>
      rw [foldlM_cons, bind_eq_ok] at h
      obtain ⟨next, hnext, hrest⟩ := h
      rcases mem_cons.mp hmem with rfl | hmem
      · exact foldlM_rec (fun _ => P) (fun c _ => hkeep c) (hset s next hnext) hrest
      · exact ih hmem hrest

/-! ### Two accounts of one computation -/

/-- Both return, what is related, or neither does. -/
def Matches (rel : α → β → Prop) : Except ε α → Option β → Prop
  | .ok a, some b => rel a b
  | .error _, none => True
  | .ok _, none => False
  | .error _, some _ => False

theorem Matches.ok {rel : α → β → Prop} {y : Option β} (h : Matches rel x y)
    {a : α} (hx : x = .ok a) : ∃ b, y = some b ∧ rel a b := by
  subst hx
  cases y with
  | none => exact h.elim
  | some b => exact ⟨b, rfl, h⟩

theorem Matches.some {rel : α → β → Prop} {y : Option β} (h : Matches rel x y)
    (hy : y = some b) : ∃ a, x = .ok a ∧ rel a b := by
  subst hy
  cases x with
  | error e => exact h.elim
  | ok a => exact ⟨a, rfl, h⟩

/-- Loops whose steps match match. -/
theorem Matches.foldlM {rel : σ → τ → Prop} {g : τ → β → Option τ}
    {l : List β} (hstep : ∀ b ∈ l, ∀ s t, rel s t → Matches rel (f s b) (g t b)) {t : τ}
    (h : rel s t) : Matches rel (l.foldlM f s) (l.foldlM g t) := by
  induction l generalizing s t with
  | nil => exact h
  | cons b rest ih =>
      have hb := hstep b mem_cons_self s t h
      rw [foldlM_cons, foldlM_cons]
      cases hf : f s b with
      | error e =>
          rw [hf] at hb
          cases hg : g t b with
          | none => exact trivial
          | some t' =>
              rw [hg] at hb
              exact hb.elim
      | ok s' =>
          obtain ⟨t', hg, hrel⟩ := hb.ok hf
          rw [hg]
          exact ih (fun c hc => hstep c (mem_cons_of_mem b hc)) hrel

/-! ### What was not raised -/

/-- The computation does not raise `e`. -/
def Avoids (e : ε) (x : Except ε α) : Prop := x ≠ .error e

variable {e : ε}

theorem Avoids.ok (a : α) : Avoids e (.ok a) := fun h => by cases h

theorem Avoids.raiseIf {c : Prop} [Decidable c] {e' : ε} (h : e' ≠ e) :
    Avoids e (raiseIf c e') := by
  by_cases hc : c <;> simp [Avoids, Fallible.raiseIf, hc, h]

theorem Avoids.bind {f : α → Except ε β} (hx : Avoids e x)
    (hf : ∀ a, x = .ok a → Avoids e (f a)) : Avoids e (x >>= f) := by
  cases x with
  | error e' => exact fun h => hx (by cases h; rfl)
  | ok a => exact hf a rfl

theorem Avoids.map (f : α → β) (hx : Avoids e x) : Avoids e (x.map f) := by
  cases x with
  | error e' => exact fun h => hx (by cases h; rfl)
  | ok a => exact Avoids.ok (f a)

theorem Avoids.foldlM (hstep : ∀ s b, Avoids e (f s b)) (l : List β)
    (s : σ) : Avoids e (l.foldlM f s) := by
  induction l generalizing s with
  | nil => exact Avoids.ok s
  | cons b rest ih =>
      rw [foldlM_cons]
      exact (hstep s b).bind fun next _ => ih next

/-! ### Both ways to end -/

/-- What is returned has the one property, what is raised the other. -/
def Ends (x : Except ε α) (returned : α → Prop) (raised : ε → Prop) : Prop :=
  match x with
  | .ok a => returned a
  | .error e => raised e

section
variable {P : α → Prop} {Q : β → Prop} {R : ε → Prop}

theorem Ends.bind {x : Except ε α} {f : α → Except ε β} (hx : Ends x P R)
    (hf : ∀ a, P a → Ends (f a) Q R) : Ends (x >>= f) Q R := by
  cases x with
  | error e => exact hx
  | ok a => exact hf a hx

theorem Ends.map {x : Except ε α} {f : α → β} (hx : Ends x P R) (hf : ∀ a, P a → Q (f a)) :
    Ends (f <$> x) Q R := by
  cases x with
  | error e => exact hx
  | ok a => exact hf a hx

theorem Ends.mono {x : Except ε α} {R' : ε → Prop} {P' : α → Prop} (hx : Ends x P R)
    (hP : ∀ a, P a → P' a) (hR : ∀ e, R e → R' e) : Ends x P' R' := by
  cases x with
  | error e => exact hR e hx
  | ok a => exact hP a hx

theorem Ends.foldlM_from {f : σ → β → Except ε σ} {l : List β} (inv : List β → σ → Prop)
    (hstep : ∀ done s, ∀ b ∈ l, inv done s → Ends (f s b) (inv (done ++ [b])) R)
    {done : List β} {s : σ} (h : inv done s) : Ends (l.foldlM f s) (inv (done ++ l)) R := by
  induction l generalizing done s with
  | nil =>
      rw [append_nil]
      exact h
  | cons b rest ih =>
      rw [foldlM_cons, append_cons]
      refine Ends.bind (hstep done s b mem_cons_self h) fun next hnext => ?_
      exact ih (fun done s c hc => hstep done s c (mem_cons_of_mem b hc)) hnext

/-- A loop keeps what is true of the elements it has been over. -/
theorem Ends.foldlM {f : σ → β → Except ε σ} {l : List β} (inv : List β → σ → Prop)
    (hstep : ∀ done s, ∀ b ∈ l, inv done s → Ends (f s b) (inv (done ++ [b])) R)
    {s : σ} (h : inv [] s) : Ends (l.foldlM f s) (inv l) R :=
  Ends.foldlM_from inv hstep h

end

/-! ### Loops over the elements of a list -/

variable {l : List α}

theorem exists_of_forall₂ {R : α → β → Prop} {l' : List β} (h : Forall₂ R l l') :
    (∀ a ∈ l, ∃ b ∈ l', R a b) ∧ ∀ b ∈ l', ∃ a ∈ l, R a b := by
  induction h with
  | nil => exact ⟨by simp, by simp⟩
  | @cons a b l l' hab _ ih =>
      constructor
      · rintro a' (_ | ⟨_, ha⟩)
        · exact ⟨b, mem_cons_self, hab⟩
        · obtain ⟨b', hb', hR⟩ := ih.1 a' ha
          exact ⟨b', mem_cons_of_mem _ hb', hR⟩
      · rintro b' (_ | ⟨_, hb⟩)
        · exact ⟨a, mem_cons_self, hab⟩
        · obtain ⟨a', ha', hR⟩ := ih.2 b' hb
          exact ⟨a', mem_cons_of_mem _ ha', hR⟩

variable {r : List β}

/-- What a loop returned, it returned element by element. -/
theorem mapM_eq_some {f : α → Option β} :
    l.mapM f = some r ↔ Forall₂ (fun a b => f a = some b) l r := by
  induction l generalizing r with
  | nil =>
    rw [mapM_nil, forall₂_nil_left_iff]
    exact ⟨fun h => (some.inj h).symm, fun h => congrArg some h.symm⟩
  | cons a l ih =>
    rw [mapM_cons, forall₂_cons_left_iff]
    constructor
    · intro h
      obtain ⟨b, hb, hrest⟩ := bind_eq_some_iff.mp h
      obtain ⟨rest, hl, hr⟩ := bind_eq_some_iff.mp hrest
      exact ⟨b, rest, hb, ih.mp hl, (some.inj hr).symm⟩
    · intro h
      obtain ⟨b, rest, hb, hl, hr⟩ := h
      rw [hb, ih.mpr hl, hr]
      rfl

theorem mapM_eq_ok {f : α → Except ε β} :
    l.mapM f = .ok r ↔ Forall₂ (fun a b => f a = .ok b) l r := by
  induction l generalizing r with
  | nil =>
    rw [mapM_nil, forall₂_nil_left_iff]
    exact ⟨fun h => (Except.ok.inj h).symm, fun h => congrArg Except.ok h.symm⟩
  | cons a l ih =>
    rw [mapM_cons, forall₂_cons_left_iff, bind_eq_ok]
    constructor
    · intro h
      obtain ⟨b, hb, hrest⟩ := h
      obtain ⟨rest, hl, hr⟩ := bind_eq_ok.mp hrest
      exact ⟨b, rest, hb, ih.mp hl, (Except.ok.inj hr).symm⟩
    · intro h
      obtain ⟨b, rest, hb, hl, hr⟩ := h
      refine ⟨b, hb, ?_⟩
      rw [ih.mpr hl, hr]
      rfl

theorem mem_mapM {f : α → Option β}
    (h : l.mapM f = some r) : ∀ b, b ∈ r ↔ ∃ a ∈ l, f a = some b := by
  obtain ⟨hleft, hright⟩ := exists_of_forall₂ (mapM_eq_some.mp h)
  intro b
  constructor
  · exact hright b
  · rintro ⟨a, ha, hb⟩
    obtain ⟨b', hb', hfa⟩ := hleft a ha
    rwa [← some.inj (hfa.symm.trans hb)]

theorem mapM_ne_none {f : α → Option β} (h : l.mapM f = some r) : ∀ a ∈ l, ∃ b ∈ r, f a = some b :=
  (exists_of_forall₂ (mapM_eq_some.mp h)).1

/-- A loop returns where it does for each of the elements. -/
theorem mapM_isSome_iff (f : α → Option β) (l : List α) :
    (l.mapM f).isSome ↔ ∀ a ∈ l, (f a).isSome := by
  induction l with
  | nil => exact iff_of_true rfl fun a ha => absurd ha not_mem_nil
  | cons a l ih =>
      rw [mapM_cons, forall_mem_cons, ← ih]
      cases f a with
      | none => exact iff_of_false Bool.false_ne_true fun h => Bool.false_ne_true h.1
      | some b =>
          rw [and_iff_right (show (some b).isSome from rfl)]
          cases l.mapM f with
          | none => exact Iff.rfl
          | some bs => exact Iff.rfl

theorem exists_mapM {f : α → Option β} (h : ∀ a ∈ l, ∃ b, f a = some b) : ∃ r, l.mapM f = some r :=
  isSome_iff_exists.mp ((mapM_isSome_iff f l).mpr fun a ha =>
    isSome_iff_exists.mpr (h a ha))

theorem mapM_eq_filterMap (f : α → Option β) (l : List α) :
    l.mapM f = if ∀ a ∈ l, (f a).isSome then some (l.filterMap f) else none := by
  split
  · rename_i hall
    obtain ⟨r, hr⟩ := isSome_iff_exists.mp ((mapM_isSome_iff f l).mpr hall)
    rw [hr]
    induction mapM_eq_some.mp hr with
    | nil => rfl
    | cons hb hrest ih =>
        rw [filterMap_cons_some hb]
        have htail := ih (fun a ha => hall a (mem_cons_of_mem _ ha)) (mapM_eq_some.mpr hrest)
        rw [← some.inj htail]
  · rename_i hnot
    exact not_isSome_iff_eq_none.mp ((mapM_isSome_iff f l).not.mpr hnot)

/-- Two loops that return the same for each element. -/
theorem mapM_agree {f g : α → Option β} {P : β → Prop}
    (h : ∀ a ∈ l, ∃ b, f a = some b ∧ g a = some b ∧ P b) :
    ∃ r, l.mapM f = some r ∧ l.mapM g = some r ∧ ∀ b ∈ r, P b := by
  obtain ⟨r, hr⟩ := exists_mapM fun a ha => (h a ha).imp fun b hb => hb.1
  have hg : Forall₂ (fun a b => g a = some b) l r := by
    refine Forall₂.imp ?_ ((forall₂_and_left l r).mpr ⟨h, mapM_eq_some.mp hr⟩)
    rintro a b ⟨⟨b', hf, hg, -⟩, hb⟩
    rw [hg, ← hf, hb]
  refine ⟨r, hr, mapM_eq_some.mpr hg, fun b hb => ?_⟩
  obtain ⟨a, ha, hfa⟩ := (mem_mapM hr b).mp hb
  obtain ⟨b', hf, -, hP⟩ := h a ha
  rwa [← some.inj (hf.symm.trans hfa)]

end InvestmentPlatform.Fallible
