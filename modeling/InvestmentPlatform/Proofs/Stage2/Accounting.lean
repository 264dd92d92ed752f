/-
The accounts of the Stage 2 loop.

A turn files one diagnostic under its candidate, whether it evaluates or restores, and a
repair pass withdraws the one it finds before that.  So whatever is evaluated, restored or
repaired, every candidate has one diagnostic when the loop ends.  The counters are kept apart
from the diagnostics; their drift is the sum of what the live evaluations left behind, and
neither a restored row nor a withdrawal moves it.  The accounting is exact precisely when no
live evaluation failed late.
-/
import InvestmentPlatform.Proofs.Stage2.Evaluate

namespace InvestmentPlatform.Stage2

open InvestmentPlatform.Cycle Rules Ledger List

/-- The diagnostics on file for a candidate. -/
abbrev filed (s : Sheet) (key : InstrumentId) : List CandidateDiagnostic :=
  under CandidateDiagnostic.globalInstrumentId s.diagnostics key

/-- What the answers of some evaluations leave behind. -/
def residues (setup : Setup) (used : List Calls) : Counts :=
  (used.map fun calls => tally (residue setup calls)).sum

theorem residues_append (setup : Setup) (used used' : List Calls) :
    residues setup (used ++ used') = residues setup used + residues setup used' := by
  simp [residues]

/-- From `s` to `s'` the answers `used` were taken, and the candidates of `keys` had their
turns. -/
structure Accounted (setup : Setup) (keys : List InstrumentId) (used : List Calls)
    (s s' : Sheet) : Prop where
  /-- The drift moves by what the evaluations left behind. -/
  drift : s'.books.drift charge = s.books.drift charge + residues setup used
  /-- Each candidate whose turn it was has one diagnostic. -/
  one : ∀ k ∈ keys, (filed s' k).length = 1
  /-- The other candidates have what they had. -/
  frame : ∀ k, k ∉ keys → filed s' k = filed s k
  owned : s'.Owned

namespace Accounted

variable {setup : Setup} {keys : List InstrumentId} {used used' : List Calls} {s mid s' : Sheet}

theorem nil (h : s.Owned) : Accounted setup [] [] s s where
  drift := by simp [residues]
  one := fun _ hk => absurd hk not_mem_nil
  frame := fun _ _ => rfl
  owned := h

theorem cons {key : InstrumentId} (hfirst : Accounted setup [key] used s mid)
    (hrest : Accounted setup keys used' mid s') (hkey : key ∉ keys) :
    Accounted setup (key :: keys) (used ++ used') s s' where
  drift := by rw [hrest.drift, hfirst.drift, residues_append, add_assoc]
  one := by
    intro k hk
    rcases mem_cons.mp hk with rfl | hk
    · rw [hrest.frame k hkey]
      exact hfirst.one k (mem_singleton_self k)
    · exact hrest.one k hk
  frame := by
    intro k hk
    rw [mem_cons, not_or] at hk
    rw [hrest.frame k hk.2]
    exact hfirst.frame k fun h => hk.1 (mem_singleton.mp h)
  owned := hrest.owned

theorem trans (hfirst : Accounted setup keys used s mid)
    (hrest : Accounted setup keys used' mid s') :
    Accounted setup keys (used ++ used') s s' where
  drift := by rw [hrest.drift, hfirst.drift, residues_append, add_assoc]
  one := hrest.one
  frame := fun k hk => (hrest.frame k hk).trans (hfirst.frame k hk)
  owned := hrest.owned

/-- Candidates that had one diagnostic and no turn still have one. -/
theorem widen {more : List InstrumentId} (h : Accounted setup keys used s s')
    (hsub : ∀ k ∈ keys, k ∈ more) (hone : ∀ k ∈ more, (filed s k).length = 1) :
    Accounted setup more used s s' where
  drift := h.drift
  one := by
    intro k hk
    by_cases hmem : k ∈ keys
    · exact h.one k hmem
    · rw [h.frame k hmem]
      exact hone k hk
  frame := fun k hk => h.frame k fun hmem => hk (hsub k hmem)
  owned := h.owned

/-- Posting the one diagnostic of a candidate. -/
theorem post {key : InstrumentId} {d : CandidateDiagnostic} (hd : d.globalInstrumentId = key)
    (hbooks : s'.books = s.books.post d (charge d + residues setup used))
    (hnone : filed s key = []) (howned : s'.Owned) : Accounted setup [key] used s s' := by
  have hdiagnostics : s'.diagnostics = s.diagnostics ++ [d] :=
    congrArg Ledger.entries hbooks
  constructor
  · rw [hbooks, drift_post, add_sub_cancel_left]
  · intro k hk
    rw [mem_singleton.mp hk, filed, hdiagnostics, under_snoc_self hd]
    change (filed s key ++ [d]).length = 1
    rw [hnone]
    rfl
  · intro k hk
    rw [filed, hdiagnostics, under_snoc_ne]
    intro h
    exact hk (mem_singleton.mpr (h.symm.trans hd))
  · exact howned

end Accounted

/-! ### One turn -/

theorem DeepPayload.diagnostic_of_read {payload : DeepPayload} {d : CandidateDiagnostic}
    {rule : Option StockRuleEngineResult} {enriched : Option Candidate}
    (h : payload.read = some (d, rule, enriched)) : payload.diagnostic = .valid d := by
  unfold DeepPayload.read at h
  split at h <;> cases h <;> assumption

/-- What is restored is filed as it was stored, and the increments are what it implies. -/
theorem restoreDeepCandidate_books {row : CheckpointRow DeepPayload} {key : InstrumentId}
    {s mid : Sheet} {increments : List Counter}
    (h : restoreDeepCandidate row key s = some (mid, increments))
    (hown : ∀ payload, row.payload = some payload → OwnDiagnostic key payload) :
    ∃ d, d.globalInstrumentId = key ∧ increments = d.increments ∧
      mid.diagnostics = s.diagnostics ++ [d] ∧ mid.counts = s.counts := by
  unfold restoreDeepCandidate at h
  cases hread : row.payload.bind DeepPayload.read with
  | none => simp [hread] at h
  | some found =>
      obtain ⟨d, rule, enriched⟩ := found
      obtain ⟨payload, hpayload, hvalid⟩ := Option.bind_eq_some_iff.mp hread
      have hkey := hown payload hpayload d (DeepPayload.diagnostic_of_read hvalid)
      refine ⟨d, hkey, ?_⟩
      cases rule with
      | none =>
          simp only [hread, Option.some.injEq, Prod.mk.injEq] at h
          exact ⟨h.2.symm, h.1 ▸ rfl, h.1 ▸ rfl⟩
      | some rule =>
          cases enriched with
          | none =>
              simp only [hread, Option.some.injEq, Prod.mk.injEq] at h
              exact ⟨h.2.symm, h.1 ▸ rfl, h.1 ▸ rfl⟩
          | some enriched =>
              simp only [hread, Option.some.injEq, Prod.mk.injEq] at h
              exact ⟨h.2.symm, h.1 ▸ rfl, h.1 ▸ rfl⟩

/-- A restored outcome is the candidate's own diagnostic and what it implies. -/
theorem restored_books {key : InstrumentId} {s s' : Sheet} (h : restored key s = some s')
    (howned : s.Owned) :
    (∃ d, d.globalInstrumentId = key ∧ s'.books = s.books.post d (charge d)) ∧ s'.Owned := by
  unfold restored at h
  cases hcheckpoint : s.checkpoint with
  | none => simp [hcheckpoint] at h
  | some checkpoint =>
      have hkept := howned checkpoint hcheckpoint
      simp only [hcheckpoint] at h
      split at h
      · cases h
      · cases hrow : checkpoint.restorable .deep key with
        | none => simp [hrow] at h
        | some row =>
            simp only [hrow] at h
            cases hread : restoreDeepCandidate row key s with
            | none => simp [hread] at h
            | some result =>
                obtain ⟨mid, increments⟩ := result
                simp only [hread, Option.some.injEq] at h
                obtain ⟨d, hkey, hincrements, hdiagnostics, hcounts⟩ :=
                  restoreDeepCandidate_books hread fun payload hpayload =>
                    hkept key row payload (CycleCheckpoint.row_of_restorable hrow) hpayload
                subst h
                constructor
                · refine ⟨d, hkey, ?_⟩
                  simp only [Sheet.books, Sheet.count, Ledger.post, hdiagnostics, hcounts,
                    hincrements, charge]
                · intro after hafter
                  cases hafter
                  exact hkept.noteRestored

theorem beginTurn_owned {s : Sheet} (h : s.Owned) (key : InstrumentId) :
    (beginTurn key s).Owned := h

theorem startAttempt_owned {s : Sheet} (h : s.Owned) (key : InstrumentId) :
    (startAttempt key s).Owned := by
  intro checkpoint hmem
  obtain ⟨before, hbefore, rfl⟩ := Option.map_eq_some_iff.mp (Option.mem_def.mp hmem)
  exact (h before hbefore).start key

variable {cancellations : Cancellations}

/-- A turn that is not broken off files one diagnostic of its candidate. -/
theorem turn_accounted {setup : Setup} {candidate : Candidate} {s : Sheet} {script : List Calls}
    {ending : Ending} (h : turn setup cancellations candidate s script = some ending)
    (hended : ending.cancelled = false) (howned : s.Owned)
    (hnone : filed s candidate.globalInstrumentId = []) :
    ∃ used, script = used ++ ending.script ∧
      Accounted setup [candidate.globalInstrumentId] used s ending.sheet := by
  simp only [turn] at h
  by_cases hcancel : s.checkpoint.isSome ∧ candidate.globalInstrumentId ∉ s.repairing ∧
      cancellations candidate.globalInstrumentId
  · -- A cancellation that was asked for breaks the loop off.
    rw [if_pos hcancel] at h
    cases h
    cases hended
  · rw [if_neg hcancel] at h
    have hbegun := beginTurn_owned howned candidate.globalInstrumentId
    cases hrestored : restored candidate.globalInstrumentId
        (beginTurn candidate.globalInstrumentId s) with
    | some s' =>
        rw [hrestored] at h
        cases h
        obtain ⟨⟨d, hkey, hbooks⟩, hafter⟩ := restored_books hrestored hbegun
        refine ⟨[], rfl, Accounted.post hkey ?_ hnone hafter⟩
        rw [hbooks, residues, map_nil, sum_nil, add_zero]
        rfl
    | none =>
        simp only [hrestored] at h
        cases script with
        | nil => cases h
        | cons calls script =>
            cases h
            have hstarted := startAttempt_owned hbegun candidate.globalInstrumentId
            obtain ⟨d, hkey, hbooks⟩ := evaluate_books setup calls candidate
              (startAttempt candidate.globalInstrumentId (beginTurn candidate.globalInstrumentId s))
            refine ⟨[calls], rfl,
              Accounted.post hkey ?_ hnone (evaluate_owned setup calls candidate hstarted)⟩
            rw [hbooks, residues, map_singleton, sum_singleton]
            rfl

/-! ### One pass -/

/-- What the schedule does before a turn takes the candidate off the books, where `Ready` holds
of what is on file for it. -/
structure Prepares (prepare : InstrumentId → Sheet → Option Sheet)
    (Ready : List CandidateDiagnostic → Prop) : Prop where
  defined : ∀ key s, Ready (filed s key) → ∃ s', prepare key s = some s'
  clears : ∀ key s s', prepare key s = some s' → Ready (filed s key) → s.Owned →
    s'.books.drift charge = s.books.drift charge ∧ filed s' key = [] ∧
      (∀ k, k ≠ key → filed s' k = filed s k) ∧ s'.Owned

/-- The main pass leaves a candidate as it is, with nothing on file. -/
theorem prepares_main : Prepares (fun _ s => some s) (· = []) where
  defined := fun _ s _ => ⟨s, rfl⟩
  clears := by
    intro key s s' h hnone howned
    cases h
    exact ⟨rfl, hnone, fun _ _ => rfl, howned⟩

/-- Undoing a retryable diagnostic takes off what it implies: such a diagnostic does not imply
the one counter the repair pass leaves alone. -/
theorem undo_eq {d : CandidateDiagnostic} (h : d.Retryable) :
    d.increments.filter (· ∈ undone) = d.increments := by
  rw [filter_eq_self]
  intro counter hmem
  have hne : counter ≠ .ruleAnalyzed := fun he =>
    CandidateDiagnostic.ruleAnalyzed_notMem_of_retryable h (he ▸ hmem)
  cases counter <;> first | decide | exact absurd rfl hne

/-- A repair pass withdraws the one retryable diagnostic of a candidate. -/
theorem prepares_withdraw : Prepares withdraw fun ds => ∃ d, ds = [d] ∧ d.Retryable where
  defined := by
    rintro key s ⟨d, hfiled, -⟩
    have hlast : s.lastDiagnostic key = some d := find?_reverse_of_under hfiled
    rw [withdraw, hlast]
    exact ⟨_, rfl⟩
  clears := by
    rintro key s s' h ⟨d, hfiled, hretryable⟩ howned
    have hlast : s.lastDiagnostic key = some d := find?_reverse_of_under hfiled
    simp only [withdraw, hlast, undo_eq hretryable, Option.some.injEq] at h
    subst h
    refine ⟨?_, under_void_self _ _, fun k hk => under_void_ne _ hk, howned⟩
    have hdrift := drift_void charge (l := s.books) hfiled (charge d)
    rw [sub_self, add_zero] at hdrift
    exact hdrift

theorem pass_accounted {setup : Setup} {prepare : InstrumentId → Sheet → Option Sheet}
    {Ready : List CandidateDiagnostic → Prop} (hprepare : Prepares prepare Ready)
    (items : List Candidate) (hdistinct : (items.map Candidate.globalInstrumentId).Nodup) :
    ∀ {s : Sheet} {script : List Calls} {ending : Ending},
      pass setup cancellations prepare items s script = some ending →
      ending.cancelled = false → s.Owned →
      (∀ c ∈ items, Ready (filed s c.globalInstrumentId)) →
      ∃ used, script = used ++ ending.script ∧
        Accounted setup (items.map Candidate.globalInstrumentId) used s ending.sheet := by
  induction items with
  | nil =>
      intro s script ending h _ howned _
      cases h
      exact ⟨[], rfl, Accounted.nil howned⟩
  | cons candidate items ih =>
      intro s script ending h hended howned hready
      rw [map_cons, nodup_cons] at hdistinct
      rw [pass] at h
      cases hprepared : prepare candidate.globalInstrumentId s with
      | none => simp [hprepared] at h
      | some prepared =>
          obtain ⟨hdrift, hcleared, hothers, hkept⟩ :=
            hprepare.clears _ _ _ hprepared (hready candidate mem_cons_self) howned
          simp only [hprepared] at h
          cases hturn : turn setup cancellations candidate prepared script with
          | none => simp [hturn] at h
          | some first =>
              simp only [hturn] at h
              split at h
              · rename_i hcancelled
                cases h
                rw [hcancelled] at hended
                cases hended
              · rename_i hgoes
                obtain ⟨used, rfl, hfirst⟩ :=
                  turn_accounted hturn (Bool.not_eq_true _ ▸ hgoes) hkept hcleared
                have hturned : Accounted setup [candidate.globalInstrumentId] used s first.sheet :=
                  { drift := hfirst.drift.trans (by rw [hdrift])
                    one := hfirst.one
                    frame := fun k hk => (hfirst.frame k hk).trans
                      (hothers k fun he => hk (mem_singleton.mpr he))
                    owned := hfirst.owned }
                -- The candidates to come have what they had: they are other candidates.
                have hstill : ∀ c ∈ items, Ready (filed first.sheet c.globalInstrumentId) := by
                  intro c hc
                  rw [hturned.frame]
                  · exact hready c (mem_cons_of_mem _ hc)
                  · intro hmem
                    exact hdistinct.1 (mem_singleton.mp hmem ▸ mem_map_of_mem hc)
                obtain ⟨used', hscript, hrest⟩ :=
                  ih hdistinct.2 h hended hturned.owned hstill
                refine ⟨used ++ used', ?_, hturned.cons hrest hdistinct.1⟩
                rw [hscript, List.append_assoc]

/-! ### The repair passes and the loop -/

/-- What a repair pass takes up has one diagnostic, which is retryable. -/
theorem repairable_ready (setup : Setup) {deepCandidates : List Candidate} {s : Sheet}
    (hone : ∀ k ∈ deepCandidates.map Candidate.globalInstrumentId, (filed s k).length = 1) :
    ∀ c ∈ deepCandidates.filter (fun c => decide (Repairable setup s c)),
      ∃ d, filed s c.globalInstrumentId = [d] ∧ d.Retryable := by
  intro c hc
  obtain ⟨hmem, hrepairable⟩ := mem_filter.mp hc
  obtain ⟨-, d, hlast, hretryable⟩ := of_decide_eq_true hrepairable
  obtain ⟨e, he⟩ := length_eq_one_iff.mp (hone _ (mem_map_of_mem hmem))
  have hsame : s.lastDiagnostic c.globalInstrumentId = some e := find?_reverse_of_under he
  rw [Option.mem_def, hsame, Option.some.injEq] at hlast
  exact ⟨e, he, hlast ▸ hretryable⟩

theorem repairLoop_accounted {setup : Setup} {deepCandidates : List Candidate}
    (hdistinct : (deepCandidates.map Candidate.globalInstrumentId).Nodup) (passes : Nat) :
    ∀ {s : Sheet} {script : List Calls} {ending : Ending},
      repairLoop setup cancellations deepCandidates passes s script = some ending →
      ending.cancelled = false → s.Owned →
      (∀ k ∈ deepCandidates.map Candidate.globalInstrumentId, (filed s k).length = 1) →
      ∃ used, script = used ++ ending.script ∧
        Accounted setup (deepCandidates.map Candidate.globalInstrumentId) used s ending.sheet := by
  have hrefl : ∀ {s : Sheet}, s.Owned →
      (∀ k ∈ deepCandidates.map Candidate.globalInstrumentId, (filed s k).length = 1) →
      Accounted setup (deepCandidates.map Candidate.globalInstrumentId) [] s s :=
    fun howned hone => (Accounted.nil howned).widen (fun _ hk => absurd hk not_mem_nil) hone
  induction passes with
  | zero =>
      intro s script ending h _ howned hone
      cases h
      exact ⟨[], rfl, hrefl howned hone⟩
  | succ passes ih =>
      intro s script ending h hended howned hone
      rw [repairLoop] at h
      split at h
      · cases h
        exact ⟨[], rfl, hrefl howned hone⟩
      · have hsub : (deepCandidates.filter fun c => decide (Repairable setup s c)).Sublist
            deepCandidates := filter_sublist
        have hready := repairable_ready setup hone
        cases hpass : pass setup cancellations withdraw
            (deepCandidates.filter fun c => decide (Repairable setup s c)) s script with
        | none => simp [hpass] at h
        | some first =>
            simp only [hpass] at h
            split at h
            · rename_i hcancelled
              cases h
              rw [hcancelled] at hended
              cases hended
            · rename_i hgoes
              obtain ⟨used, rfl, hfirst⟩ := pass_accounted prepares_withdraw _
                (hdistinct.sublist (hsub.map _)) hpass (Bool.not_eq_true _ ▸ hgoes) howned hready
              have hwide := hfirst.widen (fun k hk => (hsub.map _).subset hk) hone
              obtain ⟨used', hscript, hrest⟩ := ih h hended hwide.owned hwide.one
              refine ⟨used ++ used', ?_, hwide.trans hrest⟩
              rw [hscript, List.append_assoc]

/-- Diagnostics that all account for the same. -/
theorem charge_map {A : Type} {f : A → CandidateDiagnostic} {x : Counts}
    (h : ∀ a, charge (f a) = x) (l : List A) : ((l.map f).map charge).sum = l.length • x := by
  have hconst : charge ∘ f = fun _ => x := funext h
  rw [map_map, hconst, map_const', sum_replicate]

/-- What is set aside before the loop is accounted for. -/
theorem sheet_drift (a : Admission) (discoveryV2 : Bool)
    (checkpoint : Option (CycleCheckpoint DeepPayload)) :
    (a.sheet discoveryV2 checkpoint).books.drift charge = 0 := by
  have hmissing : ∀ key, charge (Admission.missingDiagnostic key) = tally [.stage2InternalError] :=
    fun key => rfl
  have hineligible : ∀ item, charge (Admission.ineligibleDiagnostic item) = 0 :=
    fun item => tally_nil
  have hdeferred : ∀ key, charge (Admission.deferredDiagnostic key) = 0 :=
    fun key => tally_nil
  show (fun counter => if counter = .stage2InternalError then (a.selectedMissing.length : Int)
      else 0) - ((a.diagnostics discoveryV2).map charge).sum = 0
  have hcharged : ((a.diagnostics discoveryV2).map charge).sum =
      a.selectedMissing.length • tally [.stage2InternalError] := by
    rw [Admission.diagnostics, map_append, map_append, sum_append, sum_append,
      charge_map hmissing, charge_map hdeferred, nsmul_zero, add_zero]
    split
    · rw [charge_map hineligible, nsmul_zero, add_zero]
    · rw [map_nil, sum_nil, add_zero]
  rw [hcharged, sub_eq_zero]
  funext counter
  by_cases h : counter = .stage2InternalError
  · simp [h, tally]
  · simp [h, tally, Ne.symm h]

/-- No admitted candidate has a diagnostic before the loop. -/
theorem filed_sheet (a : Admission) (discoveryV2 : Bool)
    (checkpoint : Option (CycleCheckpoint DeepPayload)) (c : Candidate)
    (hc : c ∈ a.deepCandidates) :
    filed (a.sheet discoveryV2 checkpoint) c.globalInstrumentId = [] := by
  obtain ⟨hmissing, hineligible, hdeferred⟩ := a.apart c hc
  rw [filed, under, filter_eq_nil_iff]
  intro d hd hkey
  rw [decide_eq_true_eq] at hkey
  rcases mem_append.mp hd with hd | hd
  · rcases mem_append.mp hd with hd | hd
    · obtain ⟨key, hmem, rfl⟩ := mem_map.mp hd
      exact hmissing (hkey ▸ hmem)
    · split at hd
      · obtain ⟨item, hmem, rfl⟩ := mem_map.mp hd
        exact hineligible (hkey ▸ mem_map_of_mem hmem)
      · exact absurd hd not_mem_nil
  · obtain ⟨key, hmem, rfl⟩ := mem_map.mp hd
    exact hdeferred (hkey ▸ hmem)

/-- **The loop.**  Every admitted candidate ends with one diagnostic, and the drift is what the
live evaluations left behind. -/
theorem deepLoop_accounted {setup : Setup} {a : Admission}
    {checkpoint : Option (CycleCheckpoint DeepPayload)} {script : List Calls} {ending : Ending}
    (hcheckpoint : ∀ c ∈ checkpoint, c.PayloadsWhere .deep OwnDiagnostic)
    (h : deepLoop setup cancellations a checkpoint script = some ending)
    (hended : ending.cancelled = false) :
    ∃ used, script = used ++ ending.script ∧
      Accounted setup (a.deepCandidates.map Candidate.globalInstrumentId) used
        (a.sheet setup.discoveryV2 checkpoint) ending.sheet := by
  unfold deepLoop at h
  cases hpass : pass setup cancellations (fun _ s => some s) a.deepCandidates
      (a.sheet setup.discoveryV2 checkpoint) script with
  | none => simp [hpass] at h
  | some first =>
      simp only [hpass] at h
      split at h
      · rename_i hcancelled
        cases h
        rw [hcancelled] at hended
        cases hended
      · rename_i hgoes
        obtain ⟨used, rfl, hfirst⟩ := pass_accounted prepares_main _ a.distinct hpass
          (Bool.not_eq_true _ ▸ hgoes) hcheckpoint (filed_sheet a setup.discoveryV2 checkpoint)
        obtain ⟨used', hscript, hrest⟩ := repairLoop_accounted a.distinct setup.repairPasses h
          hended hfirst.owned hfirst.one
        refine ⟨used ++ used', ?_, hfirst.trans hrest⟩
        rw [hscript, List.append_assoc]

/-! ### The loop ends -/

/-! ### Exact accounting -/

/-- One diagnostic for each admitted candidate, and every counter is the number of diagnostics
that imply it. -/
structure ExactAccounting (a : Admission) (s : Sheet) : Prop where
  oneDiagnostic : ∀ c ∈ a.deepCandidates,
    (s.diagnostics.countP fun d => d.globalInstrumentId = c.globalInstrumentId) = 1
  counters : ∀ counter, s.counts counter = s.diagnostics.countP fun d => counter ∈ d.increments

/-- What the diagnostics account for, counter by counter. -/
theorem charged_apply (ds : List CandidateDiagnostic) (counter : Counter) :
    (ds.map charge).sum counter = ds.countP fun d => counter ∈ d.increments := by
  induction ds with
  | nil => rfl
  | cons d ds ih =>
      rw [map_cons, sum_cons, Pi.add_apply, ih, countP_cons, charge, tally,
        d.nodup_increments.count]
      by_cases h : counter ∈ d.increments
      · simp only [h, if_true, decide_true]
        push_cast
        exact add_comm _ _
      · simp [h]

theorem counters_iff_drift (s : Sheet) :
    (∀ counter, s.counts counter = s.diagnostics.countP fun d => counter ∈ d.increments) ↔
      s.books.drift charge = 0 := by
  rw [drift, sub_eq_zero, funext_iff]
  refine forall_congr' fun counter => ?_
  rw [charged, Sheet.books, charged_apply]

theorem tally_nonneg (l : List Counter) (counter : Counter) : 0 ≤ tally l counter :=
  Int.natCast_nonneg _

theorem residues_nonneg (setup : Setup) (used : List Calls) (counter : Counter) :
    0 ≤ residues setup used counter := by
  induction used with
  | nil => exact le_refl _
  | cons calls used ih =>
      have htail := tally_nonneg (residue setup calls) counter
      show 0 ≤ tally (residue setup calls) counter + residues setup used counter
      omega

/-- Nothing is left behind exactly when nothing failed late: each late failure leaves a ready
candidate too many, and no evaluation takes one away. -/
theorem residues_eq_zero_iff (setup : Setup) (used : List Calls) :
    residues setup used = 0 ↔ ∀ calls ∈ used, ¬ LateFailure setup calls := by
  induction used with
  | nil => simp [residues]
  | cons calls used ih =>
      have hcons : residues setup (calls :: used) =
          tally (residue setup calls) + residues setup used := by
        simp [residues]
      rw [forall_mem_cons, ← ih]
      rcases residue_cases setup calls with ⟨hlate, hready⟩ | ⟨hnot, hnone⟩
      · refine ⟨fun hzero => ?_, fun h => absurd hlate h.1⟩
        have hpoint := congrFun hzero .deepReady
        have htail := residues_nonneg setup used .deepReady
        rw [hcons, Pi.add_apply, hready, Pi.zero_apply] at hpoint
        omega
      · rw [hcons, hnone, tally_nil, zero_add]
        exact ⟨fun hzero => ⟨hnot, hzero⟩, And.right⟩

/-- **The Stage 2 accounting.**  When the loop ends without a cancellation, the accounting is
exact if and only if none of the evaluations it made failed after the rules had returned. -/
theorem accounting_exact_iff (setup : Setup) (cancellations : Cancellations) (a : Admission)
    (checkpoint : Option (CycleCheckpoint DeepPayload)) (used rest : List Calls) (s : Sheet)
    (hcheckpoint : ∀ c ∈ checkpoint, c.PayloadsWhere .deep OwnDiagnostic)
    (h : deepLoop setup cancellations a checkpoint (used ++ rest) = some ⟨false, s, rest⟩) :
    ExactAccounting a s ↔ ∀ calls ∈ used, ¬ LateFailure setup calls := by
  obtain ⟨taken, hscript, haccounted⟩ := deepLoop_accounted hcheckpoint h rfl
  have htaken : taken = used := List.append_cancel_right hscript.symm
  subst htaken
  have hdrift : s.books.drift charge = residues setup taken := by
    rw [haccounted.drift, sheet_drift, zero_add]
  rw [← residues_eq_zero_iff, ← hdrift, ← counters_iff_drift]
  refine ⟨ExactAccounting.counters, fun hcounters => ⟨?_, hcounters⟩⟩
  intro c hc
  rw [List.countP_eq_length_filter]
  exact haccounted.one _ (List.mem_map_of_mem hc)

/-! ### A ranker that raises, and a repair -/

section Example

/-- A full result of the rules with nothing in it. -/
def fullResult : StockRuleEngineResult where
  calculatedAt := 0
  globalInstrumentId := "i1"
  inputAsOf := none
  overallScore := none
  qualityScore := none
  opportunityScore := none
  riskScore := none
  confidenceScore := 0
  confidence := .low
  decisionSignal := .hold
  isPartial := false
  eligibility := ⟨true, false, [], "FULL_CRITICAL_AND_MANDATORY_INPUTS_AVAILABLE"⟩
  areaScores := []
  riskOverrides := []
  missingInputs := []
  evidenceReferences := []

/-- Everything answers as it should, up to the ranker. -/
def callsRankedBy (score : Except String Ranked) : Calls where
  acquire := .ok (some ⟨some ⟨[], 100, 100⟩, Dict.empty⟩)
  read := .ok none
  eligibility := .ok fullResult.eligibility
  enrich := .ok []
  analyze := .ok fullResult
  priorFailure := fun _ => .ok none
  score := score

def oneRepair : Setup := ⟨false, 1, Table.empty, Table.empty⟩

def oneCandidate : Admission where
  deepCandidates := [⟨"i1"⟩]
  selectedMissing := []
  ineligible := []
  deferred := []
  distinct := by decide
  apart := by decide

/-- The ranker raises in the main pass and answers in the repair pass: one candidate, counted
as ready twice. -/
theorem repaired_counted_twice :
    ∃ s, deepLoop oneRepair (fun _ => false) oneCandidate none
        [callsRankedBy (.error "RANKER_IDENTITY_MISMATCH"), callsRankedBy (.ok ⟨true, []⟩)] =
          some ⟨false, s, []⟩ ∧
      s.counts .deepReady = 2 ∧ s.diagnostics.length = 1 ∧ ¬ ExactAccounting oneCandidate s := by
  refine ⟨_, rfl, by decide, by decide, fun h => ?_⟩
  exact absurd (h.counters .deepReady) (by decide)

def twoCandidates : Admission where
  deepCandidates := [⟨"i1"⟩, ⟨"i2"⟩]
  selectedMissing := ["i3"]
  ineligible := []
  deferred := ["i4"]
  distinct := by decide
  apart := by decide

/-- The row of a candidate that was ranked before a restart. -/
def rankedRow : CheckpointRow DeepPayload where
  state := .completed
  disposition := some "ANALYZED"
  failureReason := none
  attempts := 1
  payload := some
    { diagnostic := .valid { globalInstrumentId := "i1", status := .rankEligible,
                             rankEligible := true, disposition := some .analyzed }
      rule := .valid fullResult
      enriched := .valid ⟨"i1"⟩ }

def resumed : CycleCheckpoint DeepPayload where
  progress := Table.empty.put (.deep, "i1") rankedRow

theorem resumed_owned : resumed.PayloadsWhere .deep OwnDiagnostic := by
  intro id row payload hrow hpayload d hd
  change Table.put Table.empty _ _ (Phase.deep, id) = some row at hrow
  by_cases hid : id = "i1"
  · subst hid
    rw [Table.put_self, Option.some.injEq] at hrow
    subst hrow
    cases hpayload
    cases hd
    rfl
  · rw [Table.put_ne _ _ fun he => hid (Prod.mk.inj he).2] at hrow
    cases hrow

/-- A first candidate restored from its row and a second one ranked. -/
theorem accounting_exact_of_restored_and_ranked :
    ∃ s, deepLoop oneRepair (fun _ => false) twoCandidates (some resumed)
        ([callsRankedBy (.ok ⟨true, []⟩)] ++ []) = some ⟨false, s, []⟩ ∧
      ExactAccounting twoCandidates s := by
  refine ⟨_, rfl, (accounting_exact_iff oneRepair (fun _ => false) twoCandidates (some resumed)
    [callsRankedBy (.ok ⟨true, []⟩)] [] _ ?_ rfl).mpr ?_⟩
  · intro checkpoint hmem
    cases hmem
    exact resumed_owned
  · intro calls hcalls
    rw [List.mem_singleton.mp hcalls]
    rcases residue_cases oneRepair (callsRankedBy (.ok ⟨true, []⟩)) with ⟨-, hready⟩ | ⟨hnot, -⟩
    · exact absurd hready (by decide)
    · exact hnot

end Example

end InvestmentPlatform.Stage2
