/-
What a portfolio is over a whole sequence of imports.

In every reachable state the active positions of a portfolio are the holdings of the import that
was recorded last for it.  A confirmation therefore leaves the portfolio equal to its file when
the file is new to the portfolio, or when it lists what is in force already; a file that was
imported before and has been replaced since is taken for a duplicate.
-/
import InvestmentPlatform.Lib.Machine
import InvestmentPlatform.Proofs.Portfolio.CsvImport

namespace InvestmentPlatform.Portfolio

open Fallible JavaText List Nat ImportedHolding

variable [Casing] {parsers : List PortfolioImportParser} {sha256 : List UInt8 → String}

/-! ### One confirmation -/

/-- The holdings of the import that was recorded last for a portfolio. -/
def inForce (s : ImportStore) (key : PortfolioKey) : List ImportedHolding :=
  ((s.history.filter fun row => row.portfolio = key).getLast?).elim [] fun row =>
    (s.snapshots.filter fun snapshot => snapshot.importId = row.importId).map
      HoldingSnapshot.holding

/-- A file as it was recorded: what the tables are after the import, from the loop's. -/
structure Recorded (sha256 : List UInt8 → String) (call : ConfirmCall) (upload : Upload)
    (parsed : PortfolioImportParseResult) (s imported s' : ImportStore) : Prop where
  loop : parsed.holdings.foldlM (importHolding (call.key parsed) s.generations
    (parsed.sourceSnapshotAt.getD call.now)) s = .ok imported
  portfolios : s'.portfolios = s.portfolios.set (call.key parsed) ⟨call.now, upload.filename⟩
  positions : s'.positions = imported.positions.map (settled (call.key parsed) s.generations)
  history : ∃ row, s'.history = s.history ++ [row] ∧ row.importId = s.history.length ∧
    row.portfolio = call.key parsed ∧ row.fileSha256 = sha256 upload.content
  snapshots : ∃ observedAt, s'.snapshots = s.snapshots ++ parsed.holdings.map fun holding =>
    ⟨s.history.length, call.key parsed, holding, observedAt⟩
  generations : s'.generations = s.generations + 1

theorem importFile_cases {call : ConfirmCall} {upload : Upload}
    {parsed : PortfolioImportParseResult} {s s' : ImportStore} {result : ImportResult}
    (h : importFile sha256 call upload parsed s = .ok (result, s')) :
    (alreadyImported s (call.key parsed) (sha256 upload.content) = true ∧ s' = s) ∨
      alreadyImported s (call.key parsed) (sha256 upload.content) = false ∧
        ∃ imported, Recorded sha256 call upload parsed s imported s' := by
  unfold importFile at h
  dsimp only at h
  by_cases hseen : alreadyImported s (call.key parsed) (sha256 upload.content) = true
  · rw [if_pos hseen] at h
    cases h
    exact Or.inl ⟨hseen, rfl⟩
  · rw [if_neg hseen] at h
    obtain ⟨imported, hloop, h⟩ := bind_eq_ok.mp h
    cases h
    exact Or.inr ⟨Bool.of_not_eq_true hseen, imported,
      ⟨hloop, rfl, rfl, ⟨_, rfl, rfl, rfl, rfl⟩, ⟨_, rfl⟩, rfl⟩⟩

/-- A file that has been imported changes nothing. -/
theorem importFile_seen {call : ConfirmCall} {upload : Upload}
    {parsed : PortfolioImportParseResult} {s : ImportStore}
    (h : alreadyImported s (call.key parsed) (sha256 upload.content) = true) :
    ∃ result, importFile sha256 call upload parsed s = .ok (result, s) := by
  unfold importFile
  dsimp only
  rw [if_pos h]
  exact ⟨_, rfl⟩

theorem confirm_of_read {call : ConfirmCall} {upload : Upload}
    {parsed : PortfolioImportParseResult} (h : readFile parsers call = .ok (upload, parsed))
    (s : ImportStore) : confirm parsers sha256 call s = importFile sha256 call upload parsed s := by
  unfold confirm
  rw [h]
  rfl

/-! ### The invariant -/

/-- The tables fit together, and what is active is what is in force. -/
structure Sound (s : ImportStore) : Prop where
  identities : (s.positions.map ManualPosition.identity).Nodup
  generations : ∀ row ∈ s.positions, row.syncGenerationId < s.generations
  imports : ∀ row ∈ s.history, row.importId < s.history.length
  snapshots : ∀ snapshot ∈ s.snapshots, snapshot.importId < s.history.length
  existing : ∀ row ∈ s.history, (s.portfolios.get? row.portfolio).isSome = true
  current : ∀ key, (activeHoldings s.positions key).Perm
    ((inForce s key).map ImportedHolding.holds)

omit [Casing] in
theorem settled_generation_lt {key : PortfolioKey} {generation : Nat} {row : ManualPosition}
    (h : row.syncGenerationId ≤ generation) :
    (settled key generation row).syncGenerationId ≤ generation := by
  unfold settled
  split
  · exact le_rfl
  · exact h

variable {call : ConfirmCall} {upload : Upload} {parsed : PortfolioImportParseResult}
  {s imported s' : ImportStore}

/-- What is in force after an import: the file in its portfolio, what was before in others. -/
theorem inForce_recorded (hs : Sound s) (h : Recorded sha256 call upload parsed s imported s')
    (key : PortfolioKey) : inForce s' key =
      if key = call.key parsed then parsed.holdings else inForce s key := by
  obtain ⟨row, hhistory, hid, hkey, -⟩ := h.history
  obtain ⟨observedAt, hsnapshots⟩ := h.snapshots
  unfold inForce
  rw [hhistory, hsnapshots, filter_append]
  by_cases hsame : key = call.key parsed
  · have hnone : (s.snapshots.filter fun snapshot => snapshot.importId = row.importId) = [] := by
      rw [filter_eq_nil_iff]
      intro snapshot hsnapshot hc
      have hlt := hs.snapshots snapshot hsnapshot
      rw [← hid, ← of_decide_eq_true hc] at hlt
      exact absurd hlt (lt_irrefl _)
    rw [if_pos hsame, filter_cons, if_pos (decide_eq_true (hkey.trans hsame.symm)),
      filter_nil, getLast?_append_of_ne_nil _ (cons_ne_nil _ _),
      getLast?_singleton, Option.elim_some, filter_append, hnone, nil_append,
      filter_eq_self.mpr, map_map]
    · exact map_id _
    · intro snapshot hsnapshot
      obtain ⟨holding, -, rfl⟩ := mem_map.mp hsnapshot
      exact decide_eq_true hid.symm
  · rw [if_neg hsame, filter_cons, if_neg ?_, filter_nil, append_nil]
    · cases hlast : (s.history.filter fun row => row.portfolio = key).getLast? with
      | none => rfl
      | some last =>
          have hlt := hs.imports last (mem_filter.mp (mem_of_getLast? hlast)).1
          rw [Option.elim_some, Option.elim_some, filter_append, map_append]
          have hnone : ((parsed.holdings.map fun holding =>
              HoldingSnapshot.mk s.history.length (call.key parsed) holding observedAt).filter
                fun snapshot => snapshot.importId = last.importId) = [] := by
            rw [filter_eq_nil_iff]
            intro snapshot hsnapshot hc
            obtain ⟨holding, -, rfl⟩ := mem_map.mp hsnapshot
            have hid' : s.history.length = last.importId := of_decide_eq_true hc
            omega
          rw [hnone, map_nil, append_nil]
    · intro hc
      exact hsame ((of_decide_eq_true hc).symm.trans hkey)

/-- An import keeps the invariant. -/
theorem Sound.recorded (hs : Sound s)
    (hdistinct : (parsed.holdings.map securityKey).Nodup)
    (h : Recorded sha256 call upload parsed s imported s') : Sound s' := by
  have himported := imported_of_loop hs.identities hs.generations hdistinct h.loop
  obtain ⟨row, hhistory, hid, hkey, -⟩ := h.history
  obtain ⟨observedAt, hsnapshots⟩ := h.snapshots
  have hlength : s'.history.length = s.history.length + 1 := by
    rw [hhistory, length_append, length_singleton]
  refine ⟨?_, ?_, ?_, ?_, ?_, ?_⟩
  · rw [h.positions, map_map]
    rw [show ManualPosition.identity ∘ settled (call.key parsed) s.generations =
      ManualPosition.identity from funext (settled_identity _ _)]
    exact himported.underway.identities
  · rw [h.positions, h.generations]
    intro other hother
    obtain ⟨old, hold, rfl⟩ := mem_map.mp hother
    refine lt_succ_of_le (settled_generation_lt ?_)
    by_cases hgeneration : old.syncGenerationId = s.generations
    · exact hgeneration.le
    · exact (hs.generations old (himported.underway.others old hold hgeneration)).le
  · rw [hlength, hhistory]
    intro other hother
    rcases mem_append.mp hother with hother | hother
    · exact lt_succ_of_lt (hs.imports other hother)
    · rw [mem_singleton.mp hother, hid]
      exact lt_succ_self _
  · rw [hlength, hsnapshots]
    intro other hother
    rcases mem_append.mp hother with hother | hother
    · exact lt_succ_of_lt (hs.snapshots other hother)
    · obtain ⟨holding, -, rfl⟩ := mem_map.mp hother
      exact lt_succ_self _
  · rw [hhistory, h.portfolios]
    intro other hother
    by_cases hsame : other.portfolio = call.key parsed
    · rw [hsame, Dict.get?_set_self]
      rfl
    · rw [Dict.get?_set_ne _ _ hsame]
      rcases mem_append.mp hother with hother | hother
      · exact hs.existing other hother
      · rw [mem_singleton.mp hother] at hsame
        exact absurd hkey hsame
  · intro key
    rw [h.positions, inForce_recorded hs h]
    by_cases hsame : key = call.key parsed
    · rw [if_pos hsame, hsame]
      exact activeHoldings_settled hdistinct himported.underway
    · rw [if_neg hsame, activeHoldings_elsewhere hsame himported]
      exact hs.current key

end InvestmentPlatform.Portfolio

/-!
When a confirmed file and the portfolio agree, over every sequence of confirmations.

Duplicates are told by the hash alone, and a hash is never forgotten.  So a confirmation makes the
portfolio equal to the file exactly when the hash is new to the portfolio or the file lists what is
in force; the third file of A, B, A does neither.
-/

namespace InvestmentPlatform.Portfolio

open Fallible JavaText

section
variable [Casing] {parsers : List PortfolioImportParser} {sha256 : List UInt8 → String}

/-! ### The service over time -/

/-- The tables before the first import. -/
structure Unimported (s : ImportStore) : Prop where
  portfolios : s.portfolios = Dict.empty
  positions : s.positions = []
  history : s.history = []
  snapshots : s.snapshots = []

/-- A call whose file, where it can be read, lists every instrument once. -/
def Distinct (parsers : List PortfolioImportParser) (call : ConfirmCall) : Prop :=
  ∀ upload parsed, readFile parsers call = .ok (upload, parsed) →
    (parsed.holdings.map ImportedHolding.securityKey).Nodup

/-- The tables after a call; what throws has changed nothing. -/
def confirmed (parsers : List PortfolioImportParser) (sha256 : List UInt8 → String)
    (call : ConfirmCall) (s : ImportStore) : ImportStore :=
  (confirm parsers sha256 call s).toOption.elim s Prod.snd

/-- The service under calls with distinct instruments, of all users and brokers. -/
def imports (parsers : List PortfolioImportParser) (sha256 : List UInt8 → String) :
    Machine ImportStore ConfirmCall where
  init := Unimported
  step s call s' := Distinct parsers call ∧ s' = confirmed parsers sha256 call s

omit [Casing] in
theorem Unimported.sound {s : ImportStore} (h : Unimported s) : Sound s := by
  refine ⟨?_, ?_, ?_, ?_, ?_, ?_⟩
  · rw [h.positions]
    exact List.nodup_nil
  · rw [h.positions]
    intro row hrow
    cases hrow
  · rw [h.history]
    intro row hrow
    cases hrow
  · rw [h.snapshots]
    intro snapshot hsnapshot
    cases hsnapshot
  · rw [h.history]
    intro row hrow
    cases hrow
  · intro key
    unfold activeHoldings inForce
    rw [h.positions, h.history]
    exact List.Perm.refl _

/-- What a confirmation that ends well has read and done. -/
theorem confirm_cases {call : ConfirmCall} {s s' : ImportStore} {result : ImportResult}
    (h : confirm parsers sha256 call s = .ok (result, s')) :
    ∃ upload parsed, readFile parsers call = .ok (upload, parsed) ∧
      ((alreadyImported s (call.key parsed) (sha256 upload.content) = true ∧ s' = s) ∨
        alreadyImported s (call.key parsed) (sha256 upload.content) = false ∧
          ∃ imported, Recorded sha256 call upload parsed s imported s') := by
  cases hread : readFile parsers call with
  | error message =>
      unfold confirm at h
      rw [hread] at h
      cases h
  | ok read =>
      obtain ⟨upload, parsed⟩ := read
      rw [confirm_of_read hread] at h
      exact ⟨upload, parsed, rfl, importFile_cases h⟩

theorem Sound.confirmed {call : ConfirmCall} {s : ImportStore} (hs : Sound s)
    (hdistinct : Distinct parsers call) : Sound (confirmed parsers sha256 call s) := by
  unfold Portfolio.confirmed
  cases h : confirm parsers sha256 call s with
  | error error => exact hs
  | ok answer =>
      obtain ⟨result, s'⟩ := answer
      obtain ⟨upload, parsed, hread, ⟨-, rfl⟩ | ⟨-, imported, hrecorded⟩⟩ := confirm_cases h
      · exact hs
      · exact hs.recorded (hdistinct upload parsed hread) hrecorded

theorem sound_of_reachable {s : ImportStore} (h : (imports parsers sha256).Reachable s) :
    Sound s := by
  refine h.invariant (fun start (hstart : Unimported start) => hstart.sound) ?_
  rintro before call after hbefore ⟨hdistinct, rfl⟩
  exact hbefore.confirmed hdistinct

/-! ### When the portfolio is the file -/

/-- The portfolio holds what the file lists, in those quantities at those average costs. -/
def EqualToFile (s : ImportStore) (key : PortfolioKey)
    (parsed : PortfolioImportParseResult) : Prop :=
  (activeHoldings s.positions key).Perm (parsed.holdings.map ImportedHolding.holds)

/-- The file is new to the portfolio, or lists what the import recorded last has listed. -/
def NewOrInForce (sha256 : List UInt8 → String) (s : ImportStore) (key : PortfolioKey)
    (upload : Upload) (parsed : PortfolioImportParseResult) : Prop :=
  alreadyImported s key (sha256 upload.content) = false ∨
    ((inForce s key).map ImportedHolding.holds).Perm
      (parsed.holdings.map ImportedHolding.holds)

/-- The last import recorded for a portfolio. -/
def lastImport (s : ImportStore) (key : PortfolioKey) : Option ImportHistory :=
  (s.history.filter fun row => row.portfolio = key).getLast?

/-- What confirmations do to the portfolio they import into, in every reachable state. -/
structure ImportsMatch (parsers : List PortfolioImportParser) (sha256 : List UInt8 → String) :
    Prop where
  /-- After a confirmation the portfolio is the file, exactly under the condition. -/
  exact : ∀ {s s' call upload parsed result}, (imports parsers sha256).Reachable s →
    Distinct parsers call → readFile parsers call = .ok (upload, parsed) →
    confirm parsers sha256 call s = .ok (result, s') →
    (EqualToFile s' (call.key parsed) parsed ↔
      NewOrInForce sha256 s (call.key parsed) upload parsed)
  /-- A new file is the last import from then on. -/
  recorded : ∀ {s s' call upload parsed result}, readFile parsers call = .ok (upload, parsed) →
    alreadyImported s (call.key parsed) (sha256 upload.content) = false →
    confirm parsers sha256 call s = .ok (result, s') →
    (lastImport s' (call.key parsed)).map ImportHistory.fileSha256 = some (sha256 upload.content)
  /-- The last import, confirmed again, changes nothing. -/
  again : ∀ {s call upload parsed}, (imports parsers sha256).Reachable s →
    readFile parsers call = .ok (upload, parsed) →
    (lastImport s (call.key parsed)).map ImportHistory.fileSha256 =
      some (sha256 upload.content) →
    ∃ result, confirm parsers sha256 call s = .ok (result, s)
  /-- A confirmation that throws changes nothing. -/
  failed : ∀ {s call error}, confirm parsers sha256 call s = .error error →
    confirmed parsers sha256 call s = s

theorem equalToFile_iff {call : ConfirmCall} {upload : Upload}
    {parsed : PortfolioImportParseResult} {s s' : ImportStore} {result : ImportResult}
    (hs : Sound s) (hdistinct : Distinct parsers call)
    (hread : readFile parsers call = .ok (upload, parsed))
    (h : confirm parsers sha256 call s = .ok (result, s')) :
    EqualToFile s' (call.key parsed) parsed ↔
      NewOrInForce sha256 s (call.key parsed) upload parsed := by
  rw [confirm_of_read hread] at h
  unfold NewOrInForce EqualToFile
  rcases importFile_cases h with ⟨hseen, rfl⟩ | ⟨hnew, imported, hrecorded⟩
  · -- nothing has been done, so the portfolio holds what is in force
    have hcurrent := hs.current (call.key parsed)
    rw [hseen]
    constructor
    · intro hequal
      exact Or.inr (hcurrent.symm.trans hequal)
    · rintro (hfalse | hforce)
      · cases hfalse
      · exact hcurrent.trans hforce
  · have hcurrent := (hs.recorded (hdistinct upload parsed hread) hrecorded).current
      (call.key parsed)
    rw [inForce_recorded hs hrecorded, if_pos rfl] at hcurrent
    exact iff_of_true hcurrent (Or.inl hnew)

theorem lastImport_recorded {call : ConfirmCall} {upload : Upload}
    {parsed : PortfolioImportParseResult} {s imported s' : ImportStore}
    (h : Recorded sha256 call upload parsed s imported s') :
    (lastImport s' (call.key parsed)).map ImportHistory.fileSha256 =
      some (sha256 upload.content) := by
  obtain ⟨row, hhistory, -, hkey, hhash⟩ := h.history
  unfold lastImport
  rw [hhistory, List.filter_append, List.filter_cons, if_pos (decide_eq_true hkey),
    List.filter_nil, List.getLast?_append_of_ne_nil _ (List.cons_ne_nil _ _),
    List.getLast?_singleton, Option.map_some, hhash]

omit [Casing] in
/-- The hash of the last import is one that has been imported. -/
theorem alreadyImported_of_last {s : ImportStore} {key : PortfolioKey} {hash : String}
    (hs : Sound s) (h : (lastImport s key).map ImportHistory.fileSha256 = some hash) :
    alreadyImported s key hash = true := by
  obtain ⟨row, hlast, hhash⟩ := Option.map_eq_some_iff.mp h
  obtain ⟨hrow, hkey⟩ := List.mem_filter.mp (List.mem_of_getLast? hlast)
  have hkey : row.portfolio = key := of_decide_eq_true hkey
  unfold alreadyImported
  rw [Bool.and_eq_true, List.any_eq_true]
  refine ⟨?_, row, hrow, decide_eq_true ⟨hkey, hhash⟩⟩
  rw [← hkey]
  exact hs.existing row hrow

/-- **An import makes the portfolio equal to its file exactly where the file is new or in
force; what was imported last can be imported again, and what throws changes nothing.** -/
theorem imports_match (parsers : List PortfolioImportParser) (sha256 : List UInt8 → String) :
    ImportsMatch parsers sha256 where
  exact hreach hdistinct hread h :=
    equalToFile_iff (sound_of_reachable hreach) hdistinct hread h
  recorded {s s' call upload parsed result} hread hnew h := by
    rw [confirm_of_read hread] at h
    rcases importFile_cases h with ⟨hseen, -⟩ | ⟨-, imported, hrecorded⟩
    · rw [hnew] at hseen
      cases hseen
    · exact lastImport_recorded hrecorded
  again hreach hread hlast := by
    rw [confirm_of_read hread]
    exact importFile_seen (alreadyImported_of_last (sound_of_reachable hreach) hlast)
  failed h := by
    unfold confirmed
    rw [h]
    rfl

end

/-! ### Ten shares, twenty, and ten again -/

attribute [local instance] asciiCasing

/-- The reader, on a file without quotes. -/
def plainCsv : CsvLibrary where
  read content :=
    match ((content.map fun byte => Char.ofNat byte.toNat).splitOn '\n').map fun line =>
        (line.splitOn ',').map String.ofList with
    | [] => .ok ⟨[], []⟩
    | headers :: rows => .ok ⟨headers, rows.zipIdx.map fun row => ⟨row.2 + 1, row.1⟩⟩
  missingValue _ header := "Index for header '" ++ header ++ "' is missing"
  digit c := if isDigit c then some (c.toNat - '0'.toNat) else none

/-- A hash that tells every two files apart. -/
def plainHash (content : List UInt8) : String :=
  String.ofList (content.map fun byte => Char.ofNat byte.toNat)

/-- The export of an account that holds so many shares of one company. -/
def exportOf (quantity : String) : List UInt8 :=
  (String.intercalate "," requiredHeaders ++ "\nINFTEC,INFOSYS LTD,INE009A01021," ++ quantity ++
    ",1500,1600,15000,16000,0,1000,6.67").toUTF8.data.toList

def confirmOne (now : Nat) (quantity : String) : ConfirmCall :=
  ⟨0, .iciciDirect, some ⟨some "1234_PortFolioEqtSummary.csv", exportOf quantity⟩, none, now⟩

def unusedStore : ImportStore := ⟨Dict.empty, Dict.empty, MasterStore.empty, [], [], [], 0⟩

/-- The account is back at ten shares, and its portfolio stays at twenty. -/
theorem imports_stale :
    ((confirmOne 2 "10" |> readFile [iciciParser plainCsv]).toOption.map fun read =>
      read.2.holdings.map ImportedHolding.holds) = some [("ISIN:INE009A01021", 10, 1500)] ∧
    (([confirmOne 0 "10", confirmOne 1 "20", confirmOne 2 "10"].foldlM (fun s call =>
      (confirm [iciciParser plainCsv] plainHash call s).map Prod.snd) unusedStore).toOption.map
        fun s => activeHoldings s.positions ⟨0, .iciciDirect, "1234"⟩) =
      some [("ISIN:INE009A01021", 20, 1500)] := by
  decide +kernel

end InvestmentPlatform.Portfolio
