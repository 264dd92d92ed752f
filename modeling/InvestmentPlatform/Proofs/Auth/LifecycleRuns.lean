/-
The requests of `AuthLifecycleService` in any interleaving.

Each transaction is followed from its first statement to its commit; what it has read earlier it
knows later through the history.  A token that is drawn is one that no other request draws, so it
is new when its row is inserted.
-/
import InvestmentPlatform.Proofs.Auth.Lifecycle

namespace InvestmentPlatform.Auth.Lifecycle

open JavaText ReadCommitted SingleUse List

section
variable {I : Type} [DecidableEq I]

/-! ### The transactions -/

/-- Whatever was read, the commit keeps what is asked. -/
def Careful (transaction : Transaction I) : Prop :=
  ∀ seen db, transaction.Free applyAll discipline (fun _ _ db db' => Guarded db db') seen db

variable {db db' : Database I}

theorem Inv.findToken (h : Inv db) {tokenHash : String} {token : TokenEntity I}
    (hfound : db.findToken tokenHash = some token) : token.toTokenKey ∈ issued db.history :=
  h.tokens.keys token (mem_of_find?_eq_some hfound)

theorem Inv.findReset (h : Inv db) {tokenHash : String} {token : TokenEntity I}
    (hfound : db.findReset tokenHash = some token) : token.toTokenKey ∈ resetsIssued db.history :=
  h.resets.keys token (mem_of_find?_eq_some hfound)

theorem findById_eq {userId : I} {user : Account I} (hfound : db.findById userId = some user) :
    user.id = userId := by
  have hid := find?_some hfound
  exact of_decide_eq_true hid

omit [DecidableEq I] in
theorem unspent_of_live {token : TokenEntity I} {now : Instant} (h : token.live now = true) :
    token.consumedAt = none := by
  unfold TokenEntity.live at h
  rw [Bool.and_eq_true] at h
  exact Option.isNone_iff_eq_none.mp h.1

/-- The rows that are loaded for an account: some, and issued for it. -/
theorem Inv.tokensOf (h : Inv db) (hlater : Later db db') (h' : Inv db') {user : Account I}
    (huser : user ∈ db.users) : db'.tokensOf user.id ≠ [] ∧
      ∀ row ∈ db'.tokensOf user.id, row.toTokenKey ∈ issued db'.history ∧ row.userId = user.id := by
  obtain ⟨token, htoken, howner⟩ := h.hasToken user huser
  obtain ⟨user', huser', hid⟩ := h'.accounts _ (hlater.issued (h.tokens.keys token htoken))
  obtain ⟨row, hrow, hrowOwner⟩ := h'.hasToken user' huser'
  have hmem : row ∈ db'.tokensOf user.id := mem_filter.mpr
    ⟨hrow, decide_eq_true (hrowOwner.trans (hid.trans howner))⟩
  refine ⟨ne_nil_of_mem hmem, fun other hother => ?_⟩
  obtain ⟨hthere, hown⟩ := mem_filter.mp hother
  exact ⟨h'.tokens.keys other hthere, of_decide_eq_true hown⟩

variable [LifecycleLibrary I] (properties : AuthProperties) (draws : Draws I) (now : Instant)

theorem verify_careful (raw : String) : Careful (I := I) (verify now raw) := by
  intro seen db db₁ _ hinv₁
  dsimp only
  split
  · trivial
  · rename_i token htoken
    split
    · trivial
    · rename_i hlive
      intro db₂ hlater₂ _
      dsimp only
      split
      · trivial
      · rename_i user huser
        split
        · trivial
        · intro db' db'' hlater' hinv' hclean hcommit
          have hlater : Later db₁ db' := discipline.grow_trans hlater₂ hlater'
          exact hinv'.commit_verify rfl (hlater.issued (hinv₁.findToken htoken))
            (unspent_of_live (not_not.mp hlive)) (findById_eq huser) hclean.1 hcommit

theorem login_careful (email password : String) : Careful (I := I) (login now email password) := by
  intro seen db db₁ _ _
  dsimp only
  split
  · trivial
  · split
    · trivial
    · split
      · trivial
      · intro db' db'' _ hinv' hclean hcommit
        exact hinv'.commit_login now hclean.1 hcommit

theorem requestPasswordReset_careful (email : String) :
    Careful (requestPasswordReset properties draws now email) := by
  intro seen db db₁ _ _
  dsimp only
  split
  · intro db' db'' _ hinv' _ hcommit
    exact hinv'.commit_nothing hcommit
  · split
    · intro db' db'' _ hinv' _ hcommit
      exact hinv'.commit_nothing hcommit
    · intro db' db'' _ hinv' hclean hcommit
      exact hinv'.commit_requestPasswordReset (hclean.2 _ (mem_cons_self ..)) hcommit

theorem confirmPasswordReset_careful (raw : String) (newPassword : Option String) :
    Careful (confirmPasswordReset draws now raw newPassword) := by
  intro seen db
  unfold confirmPasswordReset
  split
  · trivial
  · split
    · trivial
    · intro db₁ _ hinv₁
      dsimp only
      split
      · trivial
      · rename_i token htoken
        split
        · trivial
        · rename_i hlive
          intro db₂ hlater₂ _
          dsimp only
          split
          · trivial
          · rename_i user huser
            split
            · trivial
            · rename_i hactive
              intro db' db'' hlater' hinv' hclean hcommit
              have hlater : Later db₁ db' := discipline.grow_trans hlater₂ hlater'
              exact hinv'.commit_confirmPasswordReset rfl
                (hlater.resetsIssued (hinv₁.findReset htoken)) (unspent_of_live (not_not.mp hlive))
                (findById_eq huser) (not_not.mp hactive) hclean.1 hcommit

theorem resendVerification_careful (email : String) :
    Careful (resendVerification properties draws now email) := by
  intro seen db db₁ _ hinv₁
  dsimp only
  split
  · intro db' db'' _ hinv' _ hcommit
    exact hinv'.commit_nothing hcommit
  · rename_i user huser
    split
    · intro db' db'' _ hinv' _ hcommit
      exact hinv'.commit_nothing hcommit
    · intro db₂ hlater₂ hinv₂
      dsimp only
      intro db' db'' hlater' hinv' hclean hcommit
      have hmem : user ∈ db₁.users :=
        mem_of_find?_eq_some (Option.eq_some_of_filter_eq_some huser)
      obtain ⟨hsome, hold⟩ := hinv₁.tokensOf hlater₂ hinv₂ hmem
      exact hinv'.commit_resend rfl (hclean.2 _ (mem_cons_self ..)) hsome
        (fun row hrow => ⟨hlater'.issued (hold row hrow).1, (hold row hrow).2⟩) hcommit

theorem register_careful (request : RegisterRequest) :
    Careful (register properties draws now request) := by
  intro seen db
  unfold register
  dsimp only
  split
  · trivial
  · intro db₁ _ hinv₁
    dsimp only
    split
    · intro db' db'' _ hinv' hclean hcommit
      refine hinv'.commit_registerNew rfl rfl rfl ?_
        (hclean.2 _ (mem_cons_of_mem _ (mem_cons_self ..))) hcommit
      show some "EMAIL_VERIFICATION_PENDING" ≠ some "ACTIVE"
      decide
    · rename_i existing hexisting
      split
      · trivial
      · rename_i hpending
        split
        · trivial
        · intro db₂ hlater₂ hinv₂
          dsimp only
          intro db' db'' hlater' hinv' hclean hcommit
          obtain ⟨hsome, hold⟩ := hinv₁.tokensOf hlater₂ hinv₂ (mem_of_find?_eq_some hexisting)
          refine hinv'.commit_registerAgain rfl ?_ ?_ ?_ hpending ?_
            (hclean.2 _ (mem_append_left _ (mem_append_left _ (mem_cons_self ..))))
            hsome (fun row hrow => ⟨hlater'.issued (hold row hrow).1, (hold row hrow).2⟩) hclean.1
            hcommit
          · rfl
          · rfl
          · rfl
          · exact hpending

/-! ### The draws -/

/-- The id and the hash that a request drew. -/
def Draws.Own (key : TokenKey I) : Prop :=
  key.id = draws.tokenId ∧ key.tokenHash = LifecycleLibrary.hash I draws.rawToken

def Change.Drawn : Change I → Prop
  | .insertToken token | .insertReset token => draws.Own token.toTokenKey
  | .note (.registered token _) | .note (.resent token) | .note (.resetIssued token) =>
    draws.Own token
  | _ => True

/-- No other token is inserted or mailed. -/
def Drawn (changes : List (Change I)) : Prop := ∀ change ∈ changes, change.Drawn draws

omit [DecidableEq I] in
theorem drawn_deletes {before after : List (Change I)} (old : List (TokenEntity I))
    (hbefore : Drawn draws before) (hafter : Drawn draws after) :
    Drawn draws (before ++ old.map .deleteToken ++ after) := by
  intro change hchange
  rcases mem_append.mp hchange with hfront | hback
  · rcases mem_append.mp hfront with hfirst | hdelete
    · exact hbefore change hfirst
    · obtain ⟨row, -, rfl⟩ := mem_map.mp hdelete
      trivial
  · exact hafter change hback

theorem transaction_drawn (request : Request) :
    (request.transaction properties draws now).Commits (Drawn draws) := by
  have hown : ∀ {userId : I} {ttlSeconds : Int},
      draws.Own (newToken draws userId now ttlSeconds).toTokenKey := ⟨rfl, rfl⟩
  have hnothing : Drawn draws ([] : List (Change I)) := fun _ h => absurd h not_mem_nil
  cases request with
  | register request =>
    unfold Request.transaction register
    dsimp only
    split
    · trivial
    · intro db
      dsimp only
      split
      · simp [ReadCommitted.Prog.Commits, Drawn, Change.Drawn, hown]
      · split
        · trivial
        · split
          · trivial
          · intro db'
            refine drawn_deletes draws _ ?_ ?_
            · simp [Drawn, Change.Drawn, hown]
            · simp [Drawn, Change.Drawn, hown]
  | verify raw =>
    intro db
    dsimp only
    split
    · trivial
    · split
      · trivial
      · intro db'
        dsimp only
        split
        · trivial
        · split
          · trivial
          · simp [ReadCommitted.Prog.Commits, Drawn, Change.Drawn]
  | resendVerification email =>
    intro db
    dsimp only
    split
    · exact hnothing
    · split
      · exact hnothing
      · intro db'
        refine drawn_deletes draws _ ?_ ?_
        · simp [Drawn, Change.Drawn, hown]
        · simp [Drawn, Change.Drawn, hown]
  | login email password =>
    intro db
    dsimp only
    split
    · trivial
    · split
      · trivial
      · split
        · trivial
        · simp [ReadCommitted.Prog.Commits, Drawn, Change.Drawn]
  | requestPasswordReset email =>
    intro db
    dsimp only
    split
    · exact hnothing
    · split
      · exact hnothing
      · simp [ReadCommitted.Prog.Commits, Drawn, Change.Drawn, hown]
  | confirmPasswordReset raw newPassword =>
    unfold Request.transaction confirmPasswordReset
    dsimp only
    split
    · trivial
    · split
      · trivial
      · intro db
        dsimp only
        split
        · trivial
        · split
          · trivial
          · intro db'
            dsimp only
            split
            · trivial
            · split
              · trivial
              · simp [ReadCommitted.Prog.Commits, Drawn, Change.Drawn]

theorem careful (request : Request) : Careful (request.transaction properties draws now) := by
  cases request with
  | register request => exact register_careful properties draws now request
  | verify raw => exact verify_careful now raw
  | resendVerification email => exact resendVerification_careful properties draws now email
  | login email password => exact login_careful now email password
  | requestPasswordReset email => exact requestPasswordReset_careful properties draws now email
  | confirmPasswordReset raw newPassword => exact confirmPasswordReset_careful draws now raw newPassword

/-- All the tokens that were mailed. -/
def mailed (db : Database I) : List (TokenKey I) := issued db.history ++ resetsIssued db.history

variable {properties draws now}

omit [LifecycleLibrary I] in
theorem apply_history {change : Change I} (h : change.apply db = .ok db') :
    db'.history = db.history ∨ ∃ event, change = .note event ∧ db'.history = db.history ++ [event] := by
  cases change with
  | insertUser user =>
    obtain ⟨-, rfl⟩ := apply_insertUser h
    exact Or.inl rfl
  | insertToken token =>
    obtain ⟨-, rfl⟩ := apply_insertToken h
    exact Or.inl rfl
  | insertReset token =>
    rw [apply_insertReset h]
    exact Or.inl rfl
  | updateUser loaded user =>
    obtain ⟨-, rfl⟩ := apply_updateUser h
    exact Or.inl rfl
  | updateToken loaded token =>
    obtain ⟨-, rfl⟩ := apply_updateToken h
    exact Or.inl rfl
  | updateReset loaded token =>
    obtain ⟨-, rfl⟩ := apply_updateReset h
    exact Or.inl rfl
  | deleteToken loaded =>
    simp only [Change.apply] at h
    split at h
    · cases h
      exact Or.inl rfl
    · cases h
  | note event =>
    rw [apply_note h]
    exact Or.inr ⟨event, rfl, rfl⟩

theorem mailed_of_apply {change : Change I} (hdrawn : change.Drawn draws)
    (h : change.apply db = .ok db') {key : TokenKey I} (hkey : key ∈ mailed db') :
    key ∈ mailed db ∨ draws.Own key := by
  unfold mailed at hkey ⊢
  rcases apply_history h with hsame | ⟨event, rfl, hmore⟩
  · rw [hsame] at hkey
    exact Or.inl hkey
  · rw [hmore, issued_append, resetsIssued_append] at hkey
    have hnew : key ∈ issued [event] ∨ key ∈ resetsIssued [event] → draws.Own key := by
      cases event with
      | registered token passwordHash =>
        simpa [issued, resetsIssued] using fun heq : key = token => heq ▸ hdrawn
      | resent token => simpa [issued, resetsIssued] using fun heq : key = token => heq ▸ hdrawn
      | verified token => simp [issued, resetsIssued]
      | resetIssued token =>
        simpa [issued, resetsIssued] using fun heq : key = token => heq ▸ hdrawn
      | passwordReset token passwordHash => simp [issued, resetsIssued]
    simp only [mem_append] at hkey ⊢
    tauto

theorem mailed_of_applyAll {changes : List (Change I)} (hdrawn : Drawn draws changes)
    (h : applyAll changes db = .ok db') {key : TokenKey I} (hkey : key ∈ mailed db') :
    key ∈ mailed db ∨ draws.Own key := by
  induction changes generalizing db with
  | nil =>
    rw [applyAll_nil h] at hkey
    exact Or.inl hkey
  | cons change changes ih =>
    obtain ⟨mid, hmid, hrest⟩ := applyAll_cons h
    rcases ih (fun other hother => hdrawn other (mem_cons_of_mem _ hother)) hrest with hmem | hown
    · exact mailed_of_apply (hdrawn change (mem_cons_self ..)) hmid hmem
    · exact Or.inr hown

omit [DecidableEq I] in
/-- What a request draws is new as long as nobody was mailed it. -/
theorem undrawn_of_drawn {changes : List (Change I)} (hdrawn : Drawn draws changes)
    (hunmailed : ∀ key ∈ mailed db, key.id ≠ draws.tokenId ∧
      key.tokenHash ≠ LifecycleLibrary.hash I draws.rawToken) : Undrawn changes db := by
  have hnew : ∀ {keys : List (TokenKey I)} {token : TokenEntity I},
      (∀ key ∈ keys, key ∈ mailed db) → draws.Own token.toTokenKey →
        token.id ∉ keys.map (·.id) ∧ token.tokenHash ∉ keys.map (·.tokenHash) := by
    rintro keys token hkeys ⟨hid, hhash⟩
    constructor
    · intro hmem
      obtain ⟨key, hkey, hsame⟩ := mem_map.mp hmem
      exact (hunmailed key (hkeys key hkey)).1 (hsame.trans hid)
    · intro hmem
      obtain ⟨key, hkey, hsame⟩ := mem_map.mp hmem
      exact (hunmailed key (hkeys key hkey)).2 (hsame.trans hhash)
  intro change hchange
  have hown := hdrawn change hchange
  cases change with
  | insertToken token => exact hnew (fun _ hkey => mem_append_left _ hkey) hown
  | insertReset token => exact hnew (fun _ hkey => mem_append_right _ hkey) hown
  | insertUser user => trivial
  | updateUser loaded user => trivial
  | updateToken loaded token => trivial
  | updateReset loaded token => trivial
  | deleteToken loaded => trivial
  | note event => trivial

/-! ### Runs -/

variable {T : Type} [DecidableEq T] {traffic : Traffic T I} {state state' : State T I}
  {action : ReadCommitted.Action AuthError T}

/-- What a request that still runs has drawn was mailed to nobody. -/
def Spaced (traffic : Traffic T I) (state : State T I) : Prop :=
  ∀ t seen prog, state.threads t = .running seen prog →
    prog.Commits (Drawn (traffic.draws t)) ∧ ∀ key ∈ mailed state.store,
      key.id ≠ (traffic.draws t).tokenId ∧
        key.tokenHash ≠ LifecycleLibrary.hash I (traffic.draws t).rawToken

theorem Spaced.step (h : Spaced traffic state) (hexec : state.exec applyAll action = some state') :
    Spaced traffic state' := by
  cases step_of_exec hexec with
  | locked u seen' next hrunning' hfree =>
    intro t seen prog hrunning
    by_cases htu : t = u
    · subst htu
      cases put_self.symm.trans hrunning
      exact ⟨(h t _ _ hrunning').1, (h t _ _ hrunning').2⟩
    · exact h t seen prog ((put_ne htu).symm.trans hrunning)
  | read u seen' next hrunning' =>
    intro t seen prog hrunning
    by_cases htu : t = u
    · subst htu
      cases put_self.symm.trans hrunning
      exact ⟨(h t seen' _ hrunning').1 state.store, (h t seen' _ hrunning').2⟩
    · exact h t seen prog ((put_ne htu).symm.trans hrunning)
  | committed u seen' changes result store hrunning' happly =>
    intro t seen prog hrunning
    have htu : t ≠ u := by
      rintro rfl
      cases finish_self.symm.trans hrunning
    obtain ⟨hdrawn, hunmailed⟩ := h t seen prog ((finish_ne htu).symm.trans hrunning)
    refine ⟨hdrawn, fun key hkey => ?_⟩
    rcases mailed_of_applyAll (h u seen' _ hrunning').1 happly hkey with hbefore | ⟨hid, hhash⟩
    · exact hunmailed key hbefore
    · -- the draws of two requests are apart
      rw [hid, hhash]
      exact ⟨fun heq => htu (traffic.tokenId_injective heq.symm), fun heq =>
        htu (traffic.rawToken_injective (LifecycleLibrary.hash_injective heq.symm))⟩
  | failed action seen' prog' error hrunning' =>
    intro t seen prog hrunning
    have htu : t ≠ action.thread := by
      rintro rfl
      cases finish_self.symm.trans hrunning
    exact h t seen prog ((finish_ne htu).symm.trans hrunning)

/-- The step is no commit, or one that writes over nothing that has changed since it was
loaded. -/
def FreshCommit (state : State T I) : ReadCommitted.Action AuthError T → Prop
  | .run t => ∀ seen changes result, state.threads t = .running seen (.commit changes result) →
      Fresh changes state.store
  | .abort _ _ => True

omit [LifecycleLibrary I] [DecidableEq T] in
theorem clean_of_freshCommit (hundrawn : ∀ t seen changes result,
    state.threads t = .running seen (.commit changes result) → Undrawn changes state.store)
    (h : FreshCommit state action) : Clean discipline state action := by
  cases action with
  | run t =>
    exact fun seen changes result hrunning =>
      ⟨h seen changes result hrunning, hundrawn t seen changes result hrunning⟩
  | abort t error => trivial

/-- The requests are sound, and their draws are new. -/
structure Safe (traffic : Traffic T I) (state : State T I) : Prop where
  sound : Sound applyAll discipline (fun _ _ _ => Guarded) state
  spaced : Spaced traffic state

theorem Safe.step (h : Safe traffic state) (hfresh : FreshCommit state action)
    (hstep : (machine traffic).step state action state') :
    Safe traffic state' ∧ Guarded state.store state'.store := by
  have hclean : Clean discipline state action :=
    clean_of_freshCommit (fun t seen changes result hrunning =>
      undrawn_of_drawn (h.spaced t seen _ hrunning).1 (h.spaced t seen _ hrunning).2) hfresh
  obtain ⟨hsound, -, hkept⟩ := h.sound.step hclean hstep
  refine ⟨⟨hsound, h.spaced.step hstep⟩, ?_⟩
  rcases hkept with ⟨hsame, -⟩ | ⟨seen, result, -, hguarded⟩
  · exact h.sound.inv.guarded_of_users (congrArg Database.users hsame)
  · exact hguarded

omit [LifecycleLibrary I] in
theorem inv_empty : Inv (emptyDatabase I) where
  userIds := nodup_nil
  tokens := .empty
  hashes := nodup_nil
  resets := .empty
  resetHashes := nodup_nil
  accounts _ h := absurd h not_mem_nil
  hasToken _ h := absurd h not_mem_nil
  oneToken _ h := absurd h not_mem_nil
  registered _ h := absurd h not_mem_nil

theorem safe_of_init (h : (machine traffic).init state) : Safe traffic state := by
  have hempty : ∀ db : Database I, db = emptyDatabase I → Inv db := by
    rintro db rfl
    exact inv_empty
  refine ⟨sound_of_init hempty
    (fun t db => careful traffic.properties (traffic.draws t) (traffic.now t) (traffic.request t) [] db)
    h, ?_⟩
  intro t seen prog hrunning
  obtain ⟨hstore, -, hthreads⟩ := h
  cases (hthreads t).symm.trans hrunning
  refine ⟨transaction_drawn _ _ _ _, fun key hkey => ?_⟩
  rw [hstore] at hkey
  cases hkey

theorem safe_of_reachable (h : ((machine traffic).restrict FreshCommit).Reachable state) :
    Safe traffic state := by
  induction h with
  | init hinit => exact safe_of_init hinit
  | step _ hstep ih => exact (ih.step hstep.1 hstep.2).1

omit [LifecycleLibrary I] in
/-- What is used once has a hash that is used once. -/
theorem Inv.acceptedOnce (h : Inv db) : AcceptedOnce db :=
  ⟨h.tokens.once.map_on fun _ hkey _ hkey' hsame =>
      inj_on_of_nodup_map h.hashes (h.tokens.usedIssued _ hkey) (h.tokens.usedIssued _ hkey') hsame,
    h.resets.once.map_on fun _ hkey _ hkey' hsame => inj_on_of_nodup_map h.resetHashes
      (h.resets.usedIssued _ hkey) (h.resets.usedIssued _ hkey') hsame⟩

/-- **As long as no commit writes over what has changed since it was loaded, tokens are accepted
once, and accounts and passwords change by the right one.** -/
theorem lifecycle_of_fresh (h : ((machine traffic).restrict FreshCommit).Reachable state) :
    AcceptedOnce state.store ∧ ∀ action state', FreshCommit state action →
      (machine traffic).step state action state' → Guarded state.store state'.store :=
  ⟨(safe_of_reachable h).sound.inv.acceptedOnce,
    fun _ _ hfresh hstep => ((safe_of_reachable h).step hfresh hstep).2⟩

end

/-! ### Runs of a few requests -/

/-- The condition on a commit, as the runs are guarded by it. -/
def freshDiscipline (I : Type) [DecidableEq I] : Discipline (Database I) (List (Change I)) :=
  { discipline with clean := Fresh }

theorem clean_freshDiscipline {T I : Type} [DecidableEq I] :
    Clean (T := T) (E := AuthError) (R := Answer I) (freshDiscipline I) = FreshCommit := by
  funext state action
  cases action with
  | run t => rfl
  | abort t error => rfl

instance {I : Type} (user : Account I) : Decidable (Verified user) :=
  inferInstanceAs (Decidable (_ ∧ _))

instance {I : Type} [DecidableEq I] (db : Database I) : Decidable (AcceptedOnce db) :=
  inferInstanceAs (Decidable (_ ∧ _))

instance : LifecycleLibrary Nat where
  uuidToString id := String.ofList (replicate id 'u')
  toLowerCase text := String.ofList (text.toList.map Char.toLower)
  encode salt password := salt ++ password
  passwordMatches password encoded := password.toList.isSuffixOf encoded.toList
  hash raw := raw
  hash_injective := fun _ _ h => h

def signUp (password : String) : Request := .register ⟨"ann@a.co", password, "Ann", "A"⟩

def sampleRaw : Fin 4 → String := ["r0", "r1", "r2", "r3"].get

theorem sampleRaw_injective : ∀ t u, sampleRaw t = sampleRaw u → t = u := by decide

/-- The requests of a list, one after the other in time. -/
def sampleTraffic (requests : List Request) : Traffic (Fin 4) Nat where
  properties := ⟨"local", 86400, 3600, true⟩
  request t := requests.getD t (.verify "")
  now t := t
  draws t := ⟨t, t, sampleRaw t, "$2a$12$"⟩
  tokenId_injective _ _ h := Fin.ext h
  rawToken_injective := sampleRaw_injective

def sampleStart (traffic : Traffic (Fin 4) Nat) : State (Fin 4) Nat where
  store := emptyDatabase Nat
  holder := none
  threads t := .running [] (traffic.transaction t)

/-- A registration, its verification and a login. -/
def signedUp : Option (State (Fin 4) Nat) :=
  ([0, 0, 1, 1, 1, 2, 2].map ReadCommitted.Action.run).foldlM
    (State.guarded applyAll fun changes db => decide (Fresh changes db))
    (sampleStart (sampleTraffic [signUp "a long password", .verify "r0",
      .login "ann@a.co" "a long password"]))

theorem signedUp_isSome : signedUp.isSome = true := by rfl

example : ∃ user ∈ (signedUp.get signedUp_isSome).store.users,
    Verified user ∧ user.lastLoginAt = some 2 := by decide

theorem lifecycle_of_fresh_sample : AcceptedOnce (signedUp.get signedUp_isSome).store ∧
    ∀ action state', FreshCommit (signedUp.get signedUp_isSome) action →
      (machine (sampleTraffic [signUp "a long password", .verify "r0",
        .login "ann@a.co" "a long password"])).step (signedUp.get signedUp_isSome) action state' →
        Guarded (signedUp.get signedUp_isSome).store state'.store := by
  refine lifecycle_of_fresh ?_
  rw [← clean_freshDiscipline]
  have hfresh : ∀ (changes : List (Change Nat)) (db : Database Nat),
      decide (Fresh changes db) = true → Fresh changes db := fun _ _ h => of_decide_eq_true h
  have hrun : ((machine (sampleTraffic [signUp "a long password", .verify "r0",
      .login "ann@a.co" "a long password"])).restrict (Clean (freshDiscipline Nat))).Run _ _
        (signedUp.get signedUp_isSome) :=
    run_of_guarded hfresh (Option.some_get signedUp_isSome).symm
  exact hrun.reachable (.init ⟨rfl, rfl, fun _ => rfl⟩)

/-- Two verifications have loaded the token that both present, and a registration the account. -/
def crossing : Traffic (Fin 4) Nat :=
  sampleTraffic [signUp "a long password", .verify "r0", .verify "r0", signUp "another password"]

def acceptedTwice : Option (State (Fin 4) Nat) :=
  ([0, 0, 1, 1, 2, 2, 3, 3, 1, 2].map ReadCommitted.Action.run).foldlM (State.exec applyAll)
    (sampleStart crossing)

theorem acceptedTwice_isSome : acceptedTwice.isSome = true := by rfl

/-- The registration writes back the account it loaded. -/
def takenBack : Option (State (Fin 4) Nat) :=
  (acceptedTwice.get acceptedTwice_isSome).exec applyAll (.run 3)

theorem takenBack_isSome : takenBack.isSome = true := by rfl

/-- A token is accepted twice, and the account it has verified waits for its verification again. -/
theorem lifecycle_broken : (machine crossing).Reachable (acceptedTwice.get acceptedTwice_isSome) ∧
    ¬ AcceptedOnce (acceptedTwice.get acceptedTwice_isSome).store ∧
      (machine crossing).step (acceptedTwice.get acceptedTwice_isSome) (.run 3)
        (takenBack.get takenBack_isSome) ∧
        ¬ Guarded (acceptedTwice.get acceptedTwice_isSome).store
          (takenBack.get takenBack_isSome).store := by
  have hrun : (machine crossing).Run (sampleStart crossing)
      ([0, 0, 1, 1, 2, 2, 3, 3, 1, 2].map .run) (acceptedTwice.get acceptedTwice_isSome) :=
    run_of_foldlM (Option.some_get acceptedTwice_isSome).symm
  refine ⟨hrun.reachable (.init ⟨rfl, rfl, fun _ => rfl⟩), by decide,
    (Option.some_get takenBack_isSome).symm, fun hguarded => ?_⟩
  obtain ⟨before, hbefore, hid, hverified⟩ :
      ∃ before ∈ (acceptedTwice.get acceptedTwice_isSome).store.users,
        before.id = 0 ∧ Verified before := by decide
  obtain ⟨user, huser, hid', hpending⟩ :
      ∃ user ∈ (takenBack.get takenBack_isSome).store.users, user.id = 0 ∧ ¬ Verified user := by
    decide
  exact hpending ((hguarded.kept before hbefore hverified).2 user huser (hid'.trans hid.symm))

end InvestmentPlatform.Auth.Lifecycle
