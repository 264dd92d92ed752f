/-
Transactions as bodies of statements.

A body runs its statements in order on one store.  Before each of them time may pass, and
each may raise for a reason of its own or because the connection fails under it: a list of
hiccups, one for each statement, says which.  A body that raises keeps the store it had
reached, so that what `transact` does with it, putting the old tables back and keeping the
clock, is visible.

What a body leaves alone is a preorder between the store before and the store after.
`Keeps` is that statement for every outcome, and it composes along the body.
-/
import Mathlib.Order.Defs.Unbundled

namespace InvestmentPlatform

/-- What befalls one statement before it runs. -/
structure Hiccup (E : Type) where
  elapsed : Nat := 0
  failure : Option E := none
  deriving DecidableEq, Repr

/-- A body of statements over the store `S`, raising `E` or returning `A`. -/
def Txn (S E A : Type) := List (Hiccup E) → S → Except E A × List (Hiccup E) × S

namespace Txn

variable {S E A B : Type}

def ret (a : A) : Txn S E A := fun hiccups s => (.ok a, hiccups, s)

def andThen (first : Txn S E A) (next : A → Txn S E B) : Txn S E B := fun hiccups s =>
  match first hiccups s with
  | (.error error, rest) => (.error error, rest)
  | (.ok a, rest, mid) => next a rest mid

instance : Monad (Txn S E) where
  pure := ret
  bind := andThen

/-- One statement: `wait` lets the time before it pass. -/
def statement (wait : Nat → S → S) (act : S → Except E (A × S)) : Txn S E A := fun hiccups s =>
  let hiccup := hiccups.headD {}
  let waited := wait hiccup.elapsed s
  match hiccup.failure with
  | some error => (.error error, hiccups.tail, waited)
  | none =>
      match act waited with
      | .error error => (.error error, hiccups.tail, waited)
      | .ok (a, s') => (.ok a, hiccups.tail, s')

/-- The statements of a loop, in order. -/
def each (body : A → Txn S E Unit) : List A → Txn S E Unit
  | [] => ret ()
  | a :: rest => (body a).andThen fun _ => each body rest

/-- Commit what a body did, or put back what it touched: `rollback old new`. -/
def transact (rollback : S → S → S) (body : Txn S E A) (hiccups : List (Hiccup E)) (s : S) :
    Except E A × S :=
  match body hiccups s with
  | (.ok a, _, s') => (.ok a, s')
  | (.error error, _, s') => (.error error, rollback s s')

/-! ### Successful bodies -/

@[simp] theorem pure_def (a : A) : (pure a : Txn S E A) = ret a := rfl

@[simp] theorem bind_def (first : Txn S E A) (next : A → Txn S E B) :
    (first >>= next) = first.andThen next := rfl

variable {hiccups : List (Hiccup E)} {s s' : S}

theorem andThen_ok {first : Txn S E A} {next : A → Txn S E B} {rest : List (Hiccup E)} {b : B} :
    first.andThen next hiccups s = (.ok b, rest, s') ↔
      ∃ a left mid, first hiccups s = (.ok a, left, mid) ∧ next a left mid = (.ok b, rest, s') := by
  unfold andThen
  constructor
  · intro h
    split at h
    · simp at h
    · rename_i a left mid heq
      exact ⟨a, left, mid, heq, h⟩
  · rintro ⟨a, left, mid, hfirst, hnext⟩
    rw [hfirst]
    exact hnext

theorem statement_ok {wait : Nat → S → S} {act : S → Except E (A × S)} {rest : List (Hiccup E)}
    {a : A} (h : statement wait act hiccups s = (.ok a, rest, s')) :
    ∃ elapsed, act (wait elapsed s) = .ok (a, s') := by
  unfold statement at h
  refine ⟨(hiccups.headD {}).elapsed, ?_⟩
  simp only at h
  split at h
  · simp at h
  · split at h
    · simp at h
    · rename_i heq
      simp only [Prod.mk.injEq, Except.ok.injEq] at h
      obtain ⟨rfl, _, rfl⟩ := h
      exact heq

variable {body : Txn S E A}

theorem transact_ok {rollback : S → S → S}
    {a : A} (h : transact rollback body hiccups s = (.ok a, s')) :
    ∃ rest, body hiccups s = (.ok a, rest, s') := by
  unfold transact at h
  split at h
  · rename_i rest _ heq
    simp only [Prod.mk.injEq, Except.ok.injEq] at h
    obtain ⟨rfl, rfl⟩ := h
    exact ⟨rest, heq⟩
  · simp at h

theorem transact_error {rollback : S → S → S}
    {error : E} (h : transact rollback body hiccups s = (.error error, s')) :
    ∃ rest reached, body hiccups s = (.error error, rest, reached) ∧ s' = rollback s reached := by
  unfold transact at h
  split at h
  · simp at h
  · rename_i rest reached heq
    simp only [Prod.mk.injEq, Except.error.injEq] at h
    obtain ⟨rfl, rfl⟩ := h
    exact ⟨rest, reached, heq, rfl⟩

/-! ### What a body keeps, whatever its outcome -/

/-- However the body ends, the store it ends in is related to the one it began in. -/
def Keeps (R : S → S → Prop) (body : Txn S E A) : Prop :=
  ∀ hiccups s, R s (body hiccups s).2.2

variable {R : S → S → Prop}

theorem keeps_ret [Std.Refl R] (a : A) : Keeps R (ret a : Txn S E A) :=
  fun _ s => refl_of R s

theorem Keeps.mono {R' : S → S → Prop} (h : Keeps R body)
    (himp : ∀ s s', R s s' → R' s s') : Keeps R' body :=
  fun hiccups s => himp _ _ (h hiccups s)

theorem Keeps.andThen [IsTrans S R] {first : Txn S E A} {next : A → Txn S E B}
    (hfirst : Keeps R first) (hnext : ∀ a, Keeps R (next a)) : Keeps R (first.andThen next) := by
  intro hiccups s
  have hone := hfirst hiccups s
  unfold Txn.andThen
  split
  · rename_i heq
    rw [heq] at hone
    exact hone
  · rename_i a rest mid heq
    rw [heq] at hone
    exact trans_of R hone (hnext a rest mid)

theorem keeps_statement [IsTrans S R] {wait : Nat → S → S} {act : S → Except E (A × S)}
    (hwait : ∀ elapsed s, R s (wait elapsed s))
    (hact : ∀ s a s', act s = .ok (a, s') → R s s') : Keeps R (statement wait act) := by
  intro hiccups s
  have hone := hwait (hiccups.headD {}).elapsed s
  unfold statement
  simp only
  split
  · exact hone
  · split
    · exact hone
    · rename_i a s' heq
      exact trans_of R hone (hact _ a s' heq)

theorem keeps_each [Std.Refl R] [IsTrans S R] {body : A → Txn S E Unit}
    (hbody : ∀ a, Keeps R (body a)) (items : List A) : Keeps R (each body items) := by
  induction items with
  | nil => exact keeps_ret ()
  | cons a rest ih => exact (hbody a).andThen fun _ => ih

end Txn

end InvestmentPlatform
