/-
Entries on file and the balance kept beside them.

Each entry on file accounts for an amount.  The balance is kept by hand: every posting adds
what it says, every withdrawal takes off what it says, and nothing compares the two with the
entries.  The drift is how far the balance is off what the entries account for.  A posting
moves it by what was added too much, a withdrawal by what was taken off too little, and by
nothing else, so that whether the books are right at the end is a sum over the steps.
-/
import Mathlib.Algebra.BigOperators.Group.List.Basic
import Mathlib.Tactic.Abel

namespace InvestmentPlatform

open List

structure Ledger (E B : Type) where
  entries : List E
  balance : B

namespace Ledger

variable {E B K : Type}

/-! ### The drift -/

section
variable [AddCommGroup B] (charge : E → B)

/-- What the entries on file account for. -/
def charged (l : Ledger E B) : B := (l.entries.map charge).sum

/-- How far the balance is off what the entries account for. -/
def drift (l : Ledger E B) : B := l.balance - l.charged charge

/-- File an entry and add an amount. -/
def post (l : Ledger E B) (e : E) (amount : B) : Ledger E B :=
  ⟨l.entries ++ [e], l.balance + amount⟩

/-- Withdraw the entries `p` selects and take an amount off. -/
def void (l : Ledger E B) (p : E → Bool) (refund : B) : Ledger E B :=
  ⟨l.entries.filter fun e => !p e, l.balance - refund⟩

variable {charge}

theorem drift_post (l : Ledger E B) (e : E) (amount : B) :
    (l.post e amount).drift charge = l.drift charge + (amount - charge e) := by
  simp only [drift, charged, post, map_append, sum_append, map_cons, map_nil, sum_cons, sum_nil]
  abel

variable (charge) in
/-- The charges of a list are those of the selected entries and those of the rest. -/
theorem charge_filter (p : E → Bool) (entries : List E) : (entries.map charge).sum =
      ((entries.filter p).map charge).sum + ((entries.filter fun e => !p e).map charge).sum := by
  induction entries with
  | nil => simp
  | cons e entries ih =>
      by_cases h : p e
      · simp only [filter_cons, h, if_true, Bool.not_true, Bool.false_eq_true, if_false,
          map_cons, sum_cons, ih, add_assoc]
      · simp only [filter_cons, h, Bool.false_eq_true, if_false, Bool.not_false, if_true,
          map_cons, sum_cons, ih]
        abel

variable (charge) in
/-- Withdrawing the one selected entry. -/
theorem drift_void {l : Ledger E B} {p : E → Bool} {e : E} (h : l.entries.filter p = [e])
    (refund : B) : (l.void p refund).drift charge = l.drift charge + (charge e - refund) := by
  have hsplit := charge_filter charge p l.entries
  rw [h, map_singleton, sum_singleton] at hsplit
  simp only [drift, charged, void]
  rw [hsplit]
  abel

end

/-! ### The entries under a key -/

section
variable [DecidableEq K] (key : E → K)

def under (entries : List E) (k : K) : List E := entries.filter fun e => decide (key e = k)

variable {key}

variable {entries : List E} {e : E} {k : K}

theorem under_snoc_self (h : key e = k) :
    under key (entries ++ [e]) k = under key entries k ++ [e] := by
  simp [under, h]

theorem under_snoc_ne (h : key e ≠ k) : under key (entries ++ [e]) k = under key entries k := by
  simp [under, h]

/-- Nothing is left under a key whose entries are withdrawn. -/
theorem under_void_self (entries : List E) (k : K) :
    under key (entries.filter fun e => !decide (key e = k)) k = [] := by
  rw [under, filter_filter, filter_eq_nil_iff]
  intro e _
  simp

theorem under_void_ne (entries : List E) {j : K} (h : j ≠ k) :
    under key (entries.filter fun e => !decide (key e = k)) j = under key entries j := by
  rw [under, filter_filter, under]
  refine filter_congr fun e _ => ?_
  by_cases he : key e = j
  · simp [he, h]
  · simp [he]

/-- The last entry under a key, where there is one only. -/
theorem find?_reverse_of_under (h : under key entries k = [e]) :
    entries.reverse.find? (fun e => decide (key e = k)) = some e := by
  rw [← head?_filter, filter_reverse]
  rw [under] at h
  rw [h]
  rfl

end

end Ledger

end InvestmentPlatform
