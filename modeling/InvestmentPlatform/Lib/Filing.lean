/-
Programs that file values under keys and may raise.

A Python loop that appends to the lists of a dict keeps what it appended when an exception
leaves the loop and a handler catches it.  A `Filing` is such a program.  What matters of it
is what it returns and what it files, in which order, and both are the same whatever lies on
the shelf when it starts: `Files` says so, and has a rule for each way to build a program.
-/
import Mathlib.Data.List.Basic

namespace InvestmentPlatform

open List

/-- The list under each key. -/
abbrev Shelf (K S : Type) := K → List S

/-- A program that files values of `S` under keys of `K` and may raise an `E`. -/
abbrev Filing (E K S : Type) := ExceptT E (StateM (Shelf K S))

namespace Filing

variable {E K S α β : Type}

theorem lift_ok_bind (a : α) (f : α → Filing E K S β) :
    (liftM (.ok a : Except E α) >>= f) = f a := rfl

theorem lift_error_bind (e : E) (f : α → Filing E K S β) :
    (liftM (.error e : Except E α) >>= f) = throw e := rfl

variable [DecidableEq K]

/-- `shelf[k].append(s)`. -/
def file (k : K) (s : S) : Filing E K S Unit :=
  modify fun shelf => Function.update shelf k (shelf k ++ [s])

/-- The shelf once every entry of the log is filed. -/
def fileAll (shelf : Shelf K S) (log : List (K × S)) : Shelf K S :=
  fun k => shelf k ++ (log.filter fun entry => entry.1 = k).map Prod.snd

@[simp] theorem fileAll_nil (shelf : Shelf K S) : fileAll shelf [] = shelf := by
  funext k
  simp [fileAll]

theorem fileAll_append (shelf : Shelf K S) (log log' : List (K × S)) :
    fileAll shelf (log ++ log') = fileAll (fileAll shelf log) log' := by
  funext k
  simp [fileAll, List.append_assoc]

theorem fileAll_singleton (shelf : Shelf K S) (k : K) (s : S) :
    fileAll shelf [(k, s)] = Function.update shelf k (shelf k ++ [s]) := by
  funext j
  by_cases h : j = k
  · subst h
    simp [fileAll]
  · rw [Function.update_of_ne h]
    simp [fileAll, Ne.symm h]

/-- Whatever the shelf, the program returns `r` and files `log`. -/
def Files (m : Filing E K S α) (r : Except E α) (log : List (K × S)) : Prop :=
  ∀ shelf, StateT.run (ExceptT.run m) shelf = (r, fileAll shelf log)

variable {m : Filing E K S α} {r : Except E α} {log : List (K × S)}

theorem Files.run (h : Files m r log) (shelf : Shelf K S) :
    StateT.run (ExceptT.run m) shelf = (r, fileAll shelf log) := h shelf

theorem files_pure (a : α) : Files (pure a : Filing E K S α) (.ok a) [] := by
  intro shelf
  rw [fileAll_nil]
  rfl

theorem files_throw (e : E) : Files (throw e : Filing E K S α) (.error e) [] := by
  intro shelf
  rw [fileAll_nil]
  rfl

theorem files_file (k : K) (s : S) : Files (file k s : Filing E K S Unit) (.ok ()) [(k, s)] := by
  intro shelf
  rw [fileAll_singleton]
  rfl

/-- A computation that files nothing. -/
theorem files_lift (r : Except E α) : Files (liftM r : Filing E K S α) r [] := by
  intro shelf
  rw [fileAll_nil]
  rfl

theorem files_bind {f : α → Filing E K S β} {a : α} {r : Except E β}
    {log' : List (K × S)} (hm : Files m (.ok a) log) (hf : Files (f a) r log') :
    Files (m >>= f) r (log ++ log') := by
  intro shelf
  rw [fileAll_append, ← hf.run, ExceptT.run_bind, StateT.run_bind, hm.run]
  rfl

theorem files_bind_error (f : α → Filing E K S β) {e : E}
    (hm : Files m (.error e) log) : Files (m >>= f) (.error e) log := by
  intro shelf
  rw [ExceptT.run_bind, StateT.run_bind, hm.run]
  rfl

/-! ### Handlers -/

theorem files_tryCatch (handle : E → Filing E K S α) {a : α} (hm : Files m (.ok a) log) :
    Files (tryCatch m handle) (.ok a) log := by
  intro shelf
  rw [ExceptT.run_tryCatch, StateT.run_bind, hm.run]
  rfl

/-- What was filed before the exception stays filed. -/
theorem files_tryCatch_error {handle : E → Filing E K S α} {e : E}
    {log' : List (K × S)} (hm : Files m (.error e) log)
    (hhandle : Files (handle e) r log') : Files (tryCatch m handle) r (log ++ log') := by
  intro shelf
  rw [fileAll_append, ← hhandle.run, ExceptT.run_tryCatch, StateT.run_bind, hm.run]
  rfl

/-! ### Whether a program returns

A program returns or raises whatever the shelf.  `Settles` names the condition on which it
returns and what is known of its log then. -/

/-- The program returns if and only if `ok` holds, and then its value and log satisfy `P`. -/
def Settles (m : Filing E K S α) (ok : Prop) (P : α → List (K × S) → Prop) : Prop :=
  (ok ∧ ∃ a log, Files m (.ok a) log ∧ P a log) ∨ (¬ ok ∧ ∃ e log, Files m (.error e) log)

variable {ok : Prop} {P : α → List (K × S) → Prop}

theorem Settles.returns
    (h : Settles m ok P) (hok : ok) : ∃ a log, Files m (.ok a) log ∧ P a log := by
  rcases h with ⟨-, h⟩ | ⟨hnot, -⟩
  · exact h
  · exact absurd hok hnot

theorem Settles.mono {ok' : Prop} {P' : α → List (K × S) → Prop}
    (h : Settles m ok P) (hok : ok ↔ ok') (hP : ∀ a log, P a log → P' a log) :
    Settles m ok' P' := by
  rcases h with ⟨hyes, a, log, hfiles, hlog⟩ | ⟨hno, hfiles⟩
  · exact Or.inl ⟨hok.mp hyes, a, log, hfiles, hP a log hlog⟩
  · exact Or.inr ⟨fun h => hno (hok.mpr h), hfiles⟩

theorem settles_file (k : K) (s : S) :
    Settles (file k s : Filing E K S Unit) True fun _ log => log = [(k, s)] :=
  Or.inl ⟨trivial, (), _, files_file k s, rfl⟩

/-- One program after another. -/
theorem settles_seq {m m' : Filing E K S Unit} {ok' : Prop} {P P' : List (K × S) → Prop}
    (hm : Settles m ok fun _ => P) (hm' : Settles m' ok' fun _ => P') :
    Settles (m >>= fun _ => m') (ok ∧ ok')
      fun _ log => ∃ first second, log = first ++ second ∧ P first ∧ P' second := by
  rcases hm with ⟨hok, ⟨⟩, log, hfiles, hlog⟩ | ⟨hno, e, log, hfiles⟩
  · rcases hm' with ⟨hok', ⟨⟩, log', hfiles', hlog'⟩ | ⟨hno', e, log', hfiles'⟩
    · exact Or.inl ⟨⟨hok, hok'⟩, (), log ++ log', files_bind hfiles hfiles', log, log', rfl,
        hlog, hlog'⟩
    · exact Or.inr ⟨fun h => hno' h.2, e, log ++ log', files_bind hfiles hfiles'⟩
  · exact Or.inr ⟨fun h => hno h.1, e, log, files_bind_error _ hfiles⟩

/-- A loop returns when every turn does, and its log is the logs of the turns. -/
theorem settles_forM {f : α → Filing E K S Unit} {ok : α → Prop}
    (l : List α) (h : ∀ a ∈ l, Settles (f a) (ok a) fun _ => P a) :
    Settles (l.forM f) (∀ a ∈ l, ok a)
      fun _ log => ∃ logs : List (List (K × S)), log = logs.flatten ∧ Forall₂ P l logs := by
  induction l with
  | nil => exact Or.inl ⟨by simp, (), [], files_pure (), [], rfl, Forall₂.nil⟩
  | cons a l ih =>
      have hrest := ih fun b hb => h b (mem_cons_of_mem _ hb)
      refine (settles_seq (h a mem_cons_self) hrest).mono (by simp) ?_
      rintro - log ⟨first, second, rfl, hfirst, logs, rfl, hlogs⟩
      exact ⟨first :: logs, rfl, Forall₂.cons hfirst hlogs⟩

/-- A reading that files nothing, then the rest of the program. -/
theorem settles_lift {f : α → Filing E K S β} {ok : α → Prop}
    {P : β → List (K × S) → Prop} (h : ∀ a, r = .ok a → Settles (f a) (ok a) P) :
    Settles (liftM r >>= f) (∃ a, r = .ok a ∧ ok a) P := by
  cases r with
  | error e =>
      refine Or.inr ⟨?_, e, [], files_bind_error f (files_lift _)⟩
      rintro ⟨a, ha, -⟩
      cases ha
  | ok a =>
      rcases h a rfl with ⟨hok, b, log, hfiles, hlog⟩ | ⟨hno, e, log, hfiles⟩
      · exact Or.inl ⟨⟨a, rfl, hok⟩, b, log, files_bind (files_lift _) hfiles, hlog⟩
      · refine Or.inr ⟨?_, e, log, files_bind (files_lift _) hfiles⟩
        rintro ⟨a', ha', hok⟩
        cases ha'
        exact hno hok

/-- Two readings that file nothing, then the rest of the program. -/
theorem settles_read {A B : Type} {r : Except E A} {g : A → Except E B} {f : B → Filing E K S α}
    {ok : B → Prop} (h : ∀ b, (r >>= g) = .ok b → Settles (f b) (ok b) P) :
    Settles (liftM r >>= fun a => liftM (g a) >>= f) (∃ b, (r >>= g) = .ok b ∧ ok b) P := by
  cases r with
  | error e =>
      refine Or.inr ⟨?_, e, [], files_bind_error _ (files_lift _)⟩
      rintro ⟨b, hb, -⟩
      cases hb
  | ok a => exact settles_lift h

/-! ### What lies under a key -/

/-- The values under a key. -/
def under (k : K) (log : List (K × S)) : List S :=
  (log.filter fun entry => entry.1 = k).map Prod.snd

@[simp] theorem under_append (k : K) (log log' : List (K × S)) :
    under k (log ++ log') = under k log ++ under k log' := by
  rw [under, filter_append, map_append]
  rfl

theorem under_self (k : K) (s : S) : under k [(k, s)] = [s] := by
  simp [under]

variable {k : K}

theorem under_eq_nil (h : ∀ entry ∈ log, entry.1 ≠ k) : under k log = [] := by
  rw [under, filter_eq_nil_iff.mpr fun entry hentry => by simpa using h entry hentry]
  rfl

theorem fileAll_empty (log : List (K × S)) (k : K) : fileAll (fun _ => []) log k = under k log :=
  nil_append _

/-- Turns that each leave one value under a key leave the values in the order of the turns. -/
theorem under_flatten {P : α → S → Prop} {l : List α} {logs : List (List (K × S))}
    (h : Forall₂ (fun a log => ∃ s, under k log = [s] ∧ P a s) l logs) :
    Forall₂ P l (under k logs.flatten) := by
  induction h with
  | nil => exact Forall₂.nil
  | cons hlog _ ih =>
      obtain ⟨s, hs, hP⟩ := hlog
      rw [flatten_cons, under_append, hs]
      exact Forall₂.cons hP ih

/-- Turns that each file one value under a key of their own leave it there. -/
theorem under_keyed {P : α → S → Prop} {key : α → K} {l : List α} {logs : List (List (K × S))}
    (h : Forall₂ (fun a log => ∃ s, log = [(key a, s)] ∧ P a s) l logs) :
    Forall₂ P (l.filter fun a => key a = k) (under k logs.flatten) := by
  induction h with
  | nil => exact Forall₂.nil
  | @cons a log l logs hlog _ ih =>
      obtain ⟨s, rfl, hP⟩ := hlog
      rw [flatten_cons, under_append]
      by_cases hk : key a = k
      · rw [filter_cons_of_pos (by simpa using hk), hk, under_self]
        exact Forall₂.cons hP ih
      · rw [filter_cons_of_neg (by simpa using hk), under_eq_nil (by simpa using hk)]
        exact ih

end Filing

end InvestmentPlatform
