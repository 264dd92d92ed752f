/-
Accounts are activated and passwords are changed by the right token, once, as long as no commit
writes over what another one has changed.

An account has one row in the token table: a registration and a resend remove the row they find
and add their own, and the removal fails where another one was faster.  So the row that is left
belongs to the last registration, and its hash is the one the account has.  What a transaction
knows at its commit it knows from the history, which only grows, or from the condition that the
row it writes back is as it was loaded.
-/
import InvestmentPlatform.Auth.Lifecycle
import InvestmentPlatform.Lib.Fallible
import InvestmentPlatform.Lib.SingleUse

namespace InvestmentPlatform.Auth.Lifecycle

open ReadCommitted SingleUse List
open Fallible (bind_eq_ok)

section
variable {I : Type} [DecidableEq I]

/-! ### What the history tells -/

/-- The verification tokens that were mailed. -/
def issued (history : List (Event I)) : List (TokenKey I) :=
  history.filterMap fun event => match event with
    | .registered token _ => some token
    | .resent token => some token
    | _ => none

/-- The verification tokens that were accepted. -/
def verified (history : List (Event I)) : List (TokenKey I) :=
  history.filterMap fun event => match event with
    | .verified token => some token
    | _ => none

def resetsIssued (history : List (Event I)) : List (TokenKey I) :=
  history.filterMap fun event => match event with
    | .resetIssued token => some token
    | _ => none

/-- The reset tokens that were accepted. -/
def resetsUsed (history : List (Event I)) : List (TokenKey I) :=
  history.filterMap fun event => match event with
    | .passwordReset token _ => some token
    | _ => none

/-- One event more, seen from one account: the password of its last registration, and the
tokens that were mailed since. -/
def Event.registration (userId : I) (current : Option (String × List String)) :
    Event I → Option (String × List String)
  | .registered token passwordHash =>
    if token.userId = userId then some (passwordHash, [token.tokenHash]) else current
  | .resent token =>
    if token.userId = userId then
      current.map fun (passwordHash, hashes) => (passwordHash, hashes ++ [token.tokenHash])
    else current
  | _ => current

def registration (history : List (Event I)) (userId : I) : Option (String × List String) :=
  history.foldl (Event.registration userId) none

/-! ### The claims -/

/-- `ACTIVE`, with the time of the verification. -/
def Verified (user : Account I) : Prop :=
  user.accountStatus = some "ACTIVE" ∧ user.emailVerifiedAt.isSome

/-- No token was accepted twice. -/
def AcceptedOnce (db : Database I) : Prop :=
  ((verified db.history).map (·.tokenHash)).Nodup ∧ ((resetsUsed db.history).map (·.tokenHash)).Nodup

/-- What a step may do to the accounts. -/
structure Guarded (db db' : Database I) : Prop where
  /-- An account becomes active by a token that was mailed since its last registration, with the
  password of that registration. -/
  activated : ∀ user ∈ db'.users, user.accountStatus = some "ACTIVE" →
    (∀ before ∈ db.users, before.id = user.id → before.accountStatus ≠ some "ACTIVE") →
      ∃ token passwordHash hashes, db'.history = db.history ++ [.verified token] ∧
        token.userId = user.id ∧ registration db.history user.id = some (passwordHash, hashes) ∧
          token.tokenHash ∈ hashes ∧ user.passwordHash = some passwordHash
  kept : ∀ before ∈ db.users, Verified before → (∃ user ∈ db'.users, user.id = before.id) ∧
    ∀ user ∈ db'.users, user.id = before.id → Verified user
  /-- The password of an active account changes by a reset token issued for it. -/
  password : ∀ before ∈ db.users, before.accountStatus = some "ACTIVE" →
    ∀ user ∈ db'.users, user.id = before.id → user.passwordHash ≠ before.passwordHash →
      ∃ token passwordHash, db'.history = db.history ++ [.passwordReset token passwordHash] ∧
        token ∈ resetsIssued db.history ∧ token.userId = user.id ∧
          user.passwordHash = some passwordHash

/-! ### The condition -/

/-- The row that is written back is as it was loaded: in what the claims speak of. -/
def Change.Fresh (db : Database I) : Change I → Prop
  | .updateUser loaded _ => ∀ row ∈ db.users, row.id = loaded.id →
      row.accountStatus = loaded.accountStatus ∧ row.emailVerifiedAt = loaded.emailVerifiedAt ∧
        row.passwordHash = loaded.passwordHash
  | .updateToken loaded _ => ∀ row ∈ db.tokens, row.id = loaded.id →
      row.consumedAt = loaded.consumedAt
  | .updateReset loaded _ => ∀ row ∈ db.resets, row.id = loaded.id →
      row.consumedAt = loaded.consumedAt
  | _ => True

instance (db : Database I) (change : Change I) : Decidable (change.Fresh db) := by
  cases change <;> unfold Change.Fresh <;> infer_instance

/-- No commit writes over what another one has changed since it was loaded. -/
def Fresh (changes : List (Change I)) (db : Database I) : Prop :=
  ∀ change ∈ changes, change.Fresh db

instance (changes : List (Change I)) (db : Database I) : Decidable (Fresh changes db) :=
  inferInstanceAs (Decidable (∀ change ∈ changes, _))

/-- A new token has an id and a hash that none had before. -/
def Change.Undrawn (db : Database I) : Change I → Prop
  | .insertToken token => token.id ∉ (issued db.history).map (·.id) ∧
      token.tokenHash ∉ (issued db.history).map (·.tokenHash)
  | .insertReset token => token.id ∉ (resetsIssued db.history).map (·.id) ∧
      token.tokenHash ∉ (resetsIssued db.history).map (·.tokenHash)
  | _ => True

def Undrawn (changes : List (Change I)) (db : Database I) : Prop :=
  ∀ change ∈ changes, change.Undrawn db

/-! ### The invariant -/

/-- The books of one token table. -/
abbrev TokenBooks (rows : List (TokenEntity I)) (issued used : List (TokenKey I)) : Prop :=
  Books TokenEntity.toTokenKey TokenKey.id (fun row => row.consumedAt.isSome) rows issued used

structure Inv (db : Database I) : Prop where
  userIds : (db.users.map (·.id)).Nodup
  tokens : TokenBooks db.tokens (issued db.history) (verified db.history)
  hashes : ((issued db.history).map (·.tokenHash)).Nodup
  resets : TokenBooks db.resets (resetsIssued db.history) (resetsUsed db.history)
  resetHashes : ((resetsIssued db.history).map (·.tokenHash)).Nodup
  accounts : ∀ key ∈ issued db.history, ∃ user ∈ db.users, user.id = key.userId
  hasToken : ∀ user ∈ db.users, ∃ token ∈ db.tokens, token.userId = user.id
  oneToken : ∀ token ∈ db.tokens, ∀ other ∈ db.tokens, token.userId = other.userId → token = other
  registered : ∀ user ∈ db.users, user.accountStatus ≠ some "ACTIVE" →
    ∃ passwordHash hashes, registration db.history user.id = some (passwordHash, hashes) ∧
      user.passwordHash = some passwordHash ∧
        ∀ token ∈ db.tokens, token.userId = user.id → token.tokenHash ∈ hashes

/-- The history of the one goes on in the other. -/
def Later (db db' : Database I) : Prop := db.history <+: db'.history

/-- Transactions that commit without looking at the rows again. -/
def discipline : Discipline (Database I) (List (Change I)) where
  inv := Inv
  clean changes db := Fresh changes db ∧ Undrawn changes db
  grow := Later
  rely := Later
  grow_refl db := prefix_refl db.history
  grow_trans := List.IsPrefix.trans
  rely_refl db := prefix_refl db.history
  rely_trans := List.IsPrefix.trans
  grow_of_rely h := h

variable {db db' db'' : Database I} {history : List (Event I)} {event : Event I}

/-! ### The history, one event more -/

omit [DecidableEq I] in
theorem issued_append (more : List (Event I)) :
    issued (history ++ more) = issued history ++ issued more := filterMap_append

omit [DecidableEq I] in
theorem verified_append (more : List (Event I)) :
    verified (history ++ more) = verified history ++ verified more := filterMap_append

omit [DecidableEq I] in
theorem resetsIssued_append (more : List (Event I)) :
    resetsIssued (history ++ more) = resetsIssued history ++ resetsIssued more :=
  filterMap_append

omit [DecidableEq I] in
theorem resetsUsed_append (more : List (Event I)) :
    resetsUsed (history ++ more) = resetsUsed history ++ resetsUsed more := filterMap_append

theorem registration_append (userId : I) : registration (history ++ [event]) userId =
    event.registration userId (registration history userId) := by
  unfold registration
  rw [foldl_append, foldl_cons, foldl_nil]

omit [DecidableEq I] in
theorem Later.issued (h : Later db db') {key : TokenKey I}
    (hkey : key ∈ Lifecycle.issued db.history) : key ∈ Lifecycle.issued db'.history := by
  obtain ⟨more, hmore⟩ := h
  rw [← hmore, issued_append]
  exact mem_append_left _ hkey

omit [DecidableEq I] in
theorem Later.resetsIssued (h : Later db db') {key : TokenKey I}
    (hkey : key ∈ Lifecycle.resetsIssued db.history) : key ∈ Lifecycle.resetsIssued db'.history := by
  obtain ⟨more, hmore⟩ := h
  rw [← hmore, resetsIssued_append]
  exact mem_append_left _ hkey

/-! ### What a commit writes -/

variable {changes : List (Change I)}

theorem applyAll_cons {change : Change I} (h : applyAll (change :: changes) db = .ok db') :
    ∃ mid, change.apply db = .ok mid ∧ applyAll changes mid = .ok db' := by
  unfold applyAll at h
  rw [foldlM_cons] at h
  exact bind_eq_ok.mp h

theorem applyAll_nil (h : applyAll [] db = .ok db') : db' = db := (Except.ok.inj h).symm

theorem apply_note (h : (Change.note event).apply db = .ok db') :
    db' = { db with history := db.history ++ [event] } := (Except.ok.inj h).symm

variable {row token : TokenEntity I}

theorem insertRow_ok {users : List (Account I)}
    {rows rows' : List (TokenEntity I)} (h : insertRow users row rows = .ok rows') :
    (∃ user ∈ users, user.id = row.userId) ∧ rows' = rows ++ [row] := by
  unfold insertRow at h
  split at h
  · cases h
  · rename_i hfree
    rw [Bool.or_eq_true, not_or] at hfree
    have howned : users.any (·.id = row.userId) = true := by simpa using hfree.2
    obtain ⟨user, huser, hid⟩ := any_eq_true.mp howned
    exact ⟨⟨user, huser, of_decide_eq_true hid⟩, (Except.ok.inj h).symm⟩

theorem updateRow_ok {rows rows' : List (TokenEntity I)} (h : updateRow row rows = .ok rows') :
    (∃ old ∈ rows, old.id = row.id) ∧ rows' = replace (·.id) row rows := by
  unfold updateRow at h
  split at h
  · rename_i hfound
    obtain ⟨old, hold, hid⟩ := any_eq_true.mp hfound
    exact ⟨⟨old, hold, of_decide_eq_true hid⟩, (Except.ok.inj h).symm⟩
  · cases h

variable {user new : Account I}

theorem apply_insertUser (h : (Change.insertUser user).apply db = .ok db') :
    user.id ∉ db.users.map (·.id) ∧ db' = { db with users := db.users ++ [user] } := by
  simp only [Change.apply] at h
  split at h
  · cases h
  · rename_i hfree
    refine ⟨fun hmem => hfree ?_, (Except.ok.inj h).symm⟩
    obtain ⟨row, hrow, hid⟩ := mem_map.mp hmem
    rw [any_eq_true]
    refine ⟨row, hrow, ?_⟩
    have hsame : user.id = row.id := hid.symm
    simp [AppUserEntity.clashes, hsame]

theorem apply_insertToken (h : (Change.insertToken token).apply db = .ok db') :
    (∃ user ∈ db.users, user.id = token.userId) ∧ db' = { db with tokens := db.tokens ++ [token] } := by
  obtain ⟨rows, hrows, h⟩ := bind_eq_ok.mp h
  obtain ⟨howner, rfl⟩ := insertRow_ok hrows
  exact ⟨howner, (Except.ok.inj h).symm⟩

theorem apply_insertReset (h : (Change.insertReset token).apply db = .ok db') :
    db' = { db with resets := db.resets ++ [token] } := by
  obtain ⟨rows, hrows, h⟩ := bind_eq_ok.mp h
  obtain ⟨-, rfl⟩ := insertRow_ok hrows
  exact (Except.ok.inj h).symm

theorem apply_updateUser {loaded : Account I}
    (h : (Change.updateUser loaded user).apply db = .ok db') :
    (∃ row ∈ db.users, row.id = user.id) ∧ db' = { db with users := replace (·.id) user db.users } := by
  simp only [Change.apply] at h
  split at h
  · rename_i hfound
    obtain ⟨row, hrow, hid⟩ := any_eq_true.mp hfound
    exact ⟨⟨row, hrow, of_decide_eq_true hid⟩, (Except.ok.inj h).symm⟩
  · cases h

theorem apply_updateToken {loaded : TokenEntity I}
    (h : (Change.updateToken loaded token).apply db = .ok db') :
    (∃ row ∈ db.tokens, row.id = token.id) ∧
      db' = { db with tokens := replace (·.id) token db.tokens } := by
  obtain ⟨rows, hrows, h⟩ := bind_eq_ok.mp h
  obtain ⟨hfound, rfl⟩ := updateRow_ok hrows
  exact ⟨hfound, (Except.ok.inj h).symm⟩

theorem apply_updateReset {loaded : TokenEntity I}
    (h : (Change.updateReset loaded token).apply db = .ok db') :
    (∃ row ∈ db.resets, row.id = token.id) ∧
      db' = { db with resets := replace (·.id) token db.resets } := by
  obtain ⟨rows, hrows, h⟩ := bind_eq_ok.mp h
  obtain ⟨hfound, rfl⟩ := updateRow_ok hrows
  exact ⟨hfound, (Except.ok.inj h).symm⟩

variable {old : List (TokenEntity I)}

/-- The loaded rows are all there, and they go. -/
theorem applyAll_deletes {rest : List (Change I)}
    (h : applyAll (old.map .deleteToken ++ rest) db = .ok db') :
    (∀ row ∈ old, ∃ token ∈ db.tokens, token.id = row.id) ∧
      applyAll rest { db with tokens := db.tokens.filter (·.id ∉ old.map (·.id)) } = .ok db' := by
  induction old generalizing db with
  | nil => simpa using h
  | cons row old ih =>
    obtain ⟨mid, hmid, hrest⟩ := applyAll_cons h
    simp only [Change.apply] at hmid
    split at hmid
    · rename_i hfound
      cases hmid
      obtain ⟨hold, hdone⟩ := ih hrest
      obtain ⟨token, htoken, hid⟩ := any_eq_true.mp hfound
      refine ⟨fun other hother => ?_, ?_⟩
      · rcases mem_cons.mp hother with rfl | hmem
        · exact ⟨token, htoken, of_decide_eq_true hid⟩
        · obtain ⟨token', htoken', hid'⟩ := hold other hmem
          exact ⟨token', mem_of_mem_filter htoken', hid'⟩
      · have hboth : (db.tokens.filter (·.id ≠ row.id)).filter (·.id ∉ old.map (·.id)) =
            db.tokens.filter (·.id ∉ (row :: old).map (·.id)) := by
          rw [filter_filter]
          refine filter_congr fun token _ => ?_
          rw [← Bool.decide_and]
          exact decide_eq_decide.mpr (by simp [and_comm])
        rw [← hboth]
        exact hdone
    · cases hmid

/-! ### The invariant under the writes -/

/-- An event that mails a verification token. -/
structure Mails (event : Event I) (key : TokenKey I) : Prop where
  issued : issued [event] = [key]
  verified : verified [event] = []
  resetsIssued : resetsIssued [event] = []
  resetsUsed : resetsUsed [event] = []
  other : ∀ userId current, userId ≠ key.userId → event.registration userId current = current

theorem mails_registered (key : TokenKey I) (passwordHash : String) :
    Mails (.registered key passwordHash) key :=
  ⟨rfl, rfl, rfl, rfl, fun _ _ hne => if_neg hne.symm⟩

theorem mails_resent (key : TokenKey I) : Mails (.resent key) key :=
  ⟨rfl, rfl, rfl, rfl, fun _ _ hne => if_neg hne.symm⟩

/-- The accounts beside a token that is mailed for one of them. -/
structure AccountsFor (db : Database I) (users : List (Account I)) (event : Event I)
    (token : TokenEntity I) : Prop where
  ids : (users.map (·.id)).Nodup
  kept : ∀ before ∈ db.users, ∃ user ∈ users, user.id = before.id
  known : ∀ user ∈ users, user.id = token.userId ∨ ∃ before ∈ db.users, before.id = user.id
  owner : ∃ user ∈ users, user.id = token.userId
  registered : ∀ user ∈ users, user.accountStatus ≠ some "ACTIVE" →
    (user ∈ db.users ∧ user.id ≠ token.userId) ∨
      (user.id = token.userId ∧ ∃ passwordHash hashes,
        event.registration user.id (registration db.history user.id) =
          some (passwordHash, hashes) ∧ user.passwordHash = some passwordHash ∧
            token.tokenHash ∈ hashes)

section

variable (h : Inv db)
include h

/-- The rows of an account go, and a new one comes. -/
theorem Inv.mail {users : List (Account I)} (hmails : Mails event token.toTokenKey)
    (husers : AccountsFor db users event token) (hundrawn : (Change.insertToken token).Undrawn db)
    (hold : ∀ row ∈ old, row.toTokenKey ∈ issued db.history ∧ row.userId = token.userId)
    (hgone : ∀ row ∈ db.tokens, row.userId = token.userId → row.id ∈ old.map (·.id)) :
    Inv { db with
      users := users
      tokens := (db.tokens ++ [token]).filter (·.id ∉ old.map (·.id))
      history := db.history ++ [event] } := by
  have hissued : issued (db.history ++ [event]) = issued db.history ++ [token.toTokenKey] := by
    rw [issued_append, hmails.issued]
  have hverified : verified (db.history ++ [event]) = verified db.history := by
    rw [verified_append, hmails.verified, append_nil]
  have hresets : resetsIssued (db.history ++ [event]) = resetsIssued db.history := by
    rw [resetsIssued_append, hmails.resetsIssued, append_nil]
  have hused : resetsUsed (db.history ++ [event]) = resetsUsed db.history := by
    rw [resetsUsed_append, hmails.resetsUsed, append_nil]
  have hmem : ∀ {row}, row ∈ (db.tokens ++ [token]).filter (·.id ∉ old.map (·.id)) ↔
      (row ∈ db.tokens ∨ row = token) ∧ row.id ∉ old.map (·.id) := by
    intro row
    rw [mem_filter, mem_append, mem_singleton, decide_eq_true_iff]
  have hstays : token.id ∉ old.map (·.id) := by
    intro hid
    obtain ⟨row, hrow, hid⟩ := mem_map.mp hid
    exact hundrawn.1 (hid ▸ mem_map_of_mem (hold row hrow).1)
  -- the row that stays is the new one
  have hnew : ∀ row, row ∈ (db.tokens ++ [token]).filter (·.id ∉ old.map (·.id)) →
      row.userId = token.userId → row = token := by
    intro row hrow huser
    obtain ⟨hbefore | heq, hleft⟩ := hmem.mp hrow
    · exact absurd (hgone row hbefore huser) hleft
    · exact heq
  refine ⟨husers.ids, ?_, ?_, ?_, ?_, fun key hkey => ?_, fun user huser => ?_,
    fun row hrow other hother heq => ?_, fun user huser hstatus => ?_⟩
  · show TokenBooks _ (issued (db.history ++ [event])) (verified (db.history ++ [event]))
    rw [hissued, hverified]
    exact (h.tokens.issue hundrawn.1).filter _
  · show ((issued (db.history ++ [event])).map (·.tokenHash)).Nodup
    rw [hissued, map_append, map_singleton]
    exact h.hashes.append (nodup_singleton _) (disjoint_singleton.mpr hundrawn.2)
  · show TokenBooks _ (resetsIssued (db.history ++ [event])) (resetsUsed (db.history ++ [event]))
    rw [hresets, hused]
    exact h.resets
  · show ((resetsIssued (db.history ++ [event])).map (·.tokenHash)).Nodup
    rw [hresets]
    exact h.resetHashes
  · have hkey : key ∈ issued (db.history ++ [event]) := hkey
    rw [hissued] at hkey
    rcases mem_append.mp hkey with hbefore | hlast
    · obtain ⟨before, hbefore, hid⟩ := h.accounts key hbefore
      obtain ⟨user, huser, hsame⟩ := husers.kept before hbefore
      exact ⟨user, huser, hsame.trans hid⟩
    · rw [mem_singleton.mp hlast]
      exact husers.owner
  · by_cases heq : user.id = token.userId
    · exact ⟨token, hmem.mpr ⟨Or.inr rfl, hstays⟩, heq.symm⟩
    · obtain hown | ⟨before, hbefore, hid⟩ := husers.known user huser
      · exact absurd hown heq
      obtain ⟨row, hrow, huserId⟩ := h.hasToken before hbefore
      refine ⟨row, hmem.mpr ⟨Or.inl hrow, fun hremoved => ?_⟩, huserId.trans hid⟩
      obtain ⟨loaded, hloaded, hsame⟩ := mem_map.mp hremoved
      have hkey := h.tokens.key_eq (hold loaded hloaded).1 (h.tokens.keys row hrow) hsame
      have howner : loaded.userId = row.userId := congrArg TokenKey.userId hkey
      exact heq (hid.symm.trans (huserId.symm.trans (howner.symm.trans (hold loaded hloaded).2)))
  · by_cases huser : row.userId = token.userId
    · rw [hnew row hrow huser, hnew other hother (heq.symm.trans huser)]
    · have hother' : other.userId ≠ token.userId := fun hown => huser (heq.trans hown)
      obtain ⟨hrow | hrow, -⟩ := hmem.mp hrow
      · obtain ⟨hother | hother, -⟩ := hmem.mp hother
        · exact h.oneToken row hrow other hother heq
        · exact absurd (congrArg (·.userId) hother) hother'
      · exact absurd (congrArg (·.userId) hrow) huser
  · show ∃ passwordHash hashes, registration (db.history ++ [event]) user.id = _ ∧ _
    rw [registration_append]
    rcases husers.registered user huser hstatus with ⟨hbefore, hne⟩ | ⟨heq, hown⟩
    · obtain ⟨passwordHash, hashes, hlast, hpassword, htokens⟩ := h.registered user hbefore hstatus
      refine ⟨passwordHash, hashes, ?_, hpassword, fun row hrow huserId => ?_⟩
      · rw [hmails.other user.id _ hne]
        exact hlast
      · obtain ⟨hrow | hrow, -⟩ := hmem.mp hrow
        · exact htokens row hrow huserId
        · rw [hrow] at huserId
          exact absurd huserId.symm hne
    · obtain ⟨passwordHash, hashes, hlast, hpassword, hhash⟩ := hown
      refine ⟨passwordHash, hashes, hlast, hpassword, fun row hrow huserId => ?_⟩
      rw [hnew row hrow (huserId.trans heq)]
      exact hhash

/-- One account is written back. -/
theorem Inv.replaceUser {row : Account I} (hrow : row ∈ db.users)
    (hid : row.id = new.id) (hstatus : new.accountStatus ≠ some "ACTIVE" →
      row.accountStatus ≠ some "ACTIVE" ∧ row.passwordHash = new.passwordHash) :
    Inv { db with users := replace (·.id) new db.users } := by
  refine ⟨?_, h.tokens, h.hashes, h.resets, h.resetHashes, fun key hkey => ?_, fun user huser => ?_,
    h.oneToken, fun user huser hpending => ?_⟩
  · show ((replace (·.id) new db.users).map (·.id)).Nodup
    rw [replace_ids]
    exact h.userIds
  · obtain ⟨before, hbefore, howner⟩ := h.accounts key hkey
    obtain ⟨user, huser, hsame⟩ : ∃ user ∈ replace (·.id) new db.users, user.id = before.id :=
      exists_replace hbefore
    exact ⟨user, huser, hsame.trans howner⟩
  · obtain ⟨rfl, -⟩ | ⟨hbefore, -⟩ := mem_replace.mp huser
    · obtain ⟨token, htoken, howner⟩ := h.hasToken row hrow
      exact ⟨token, htoken, howner.trans hid⟩
    · exact h.hasToken user hbefore
  · obtain ⟨rfl, -⟩ | ⟨hbefore, -⟩ := mem_replace.mp huser
    · obtain ⟨hrowPending, hpassword⟩ := hstatus hpending
      obtain ⟨passwordHash, hashes, hlast, hsame, htokens⟩ := h.registered row hrow hrowPending
      rw [hid] at hlast htokens
      exact ⟨passwordHash, hashes, hlast, hpassword.symm.trans hsame, htokens⟩
    · exact h.registered user hbefore hpending

/-- A verification token is used. -/
theorem Inv.useToken (new : TokenEntity I) (hrow : row ∈ db.tokens)
    (hunspent : row.consumedAt = none) (hissued : new.toTokenKey ∈ issued db.history)
    (hid : row.id = new.id) (hspent : new.consumedAt.isSome) :
    Inv { db with
      tokens := replace (·.id) new db.tokens
      history := db.history ++ [.verified new.toTokenKey] } := by
  have hkey : row.toTokenKey = new.toTokenKey :=
    h.tokens.key_eq (h.tokens.keys row hrow) hissued hid
  have hmem : ∀ {token}, token ∈ replace (·.id) new db.tokens →
      ∃ before ∈ db.tokens, before.toTokenKey = token.toTokenKey ∧
        (token = new ∨ token = before) := by
    intro token htoken
    obtain ⟨rfl, -⟩ | ⟨hbefore, -⟩ := mem_replace.mp htoken
    · exact ⟨row, hrow, hkey, Or.inl rfl⟩
    · exact ⟨token, hbefore, rfl, Or.inr rfl⟩
  have hsame : issued (db.history ++ [.verified new.toTokenKey]) = issued db.history := by
    rw [issued_append]
    exact append_nil _
  have hverified : verified (db.history ++ [.verified new.toTokenKey]) =
      verified db.history ++ [new.toTokenKey] := verified_append _
  have hresets : resetsIssued (db.history ++ [.verified new.toTokenKey]) =
      resetsIssued db.history := by
    rw [resetsIssued_append]
    exact append_nil _
  have hused : resetsUsed (db.history ++ [.verified new.toTokenKey]) = resetsUsed db.history := by
    rw [resetsUsed_append]
    exact append_nil _
  refine ⟨h.userIds, ?_, ?_, ?_, ?_, fun key hkey => ?_, fun user huser => ?_,
    fun token htoken other hother howner => ?_, fun user huser hpending => ?_⟩
  · show TokenBooks _ (issued (db.history ++ _)) (verified (db.history ++ _))
    rw [hsame, hverified]
    exact h.tokens.use hrow (fun hgone => absurd hunspent (Option.isSome_iff_ne_none.mp hgone))
      hissued hid hspent
  · show ((issued (db.history ++ _)).map (·.tokenHash)).Nodup
    rw [hsame]
    exact h.hashes
  · show TokenBooks _ (resetsIssued (db.history ++ _)) (resetsUsed (db.history ++ _))
    rw [hresets, hused]
    exact h.resets
  · show ((resetsIssued (db.history ++ _)).map (·.tokenHash)).Nodup
    rw [hresets]
    exact h.resetHashes
  · have hkey : key ∈ issued (db.history ++ [.verified new.toTokenKey]) := hkey
    rw [hsame] at hkey
    exact h.accounts key hkey
  · obtain ⟨token, htoken, howner⟩ := h.hasToken user huser
    obtain ⟨token', htoken', hid'⟩ : ∃ token' ∈ replace (·.id) new db.tokens,
        token'.id = token.id := exists_replace htoken
    obtain ⟨before, hbefore, hkey', -⟩ := hmem htoken'
    have hbefore' : before = token :=
      h.tokens.row_eq hbefore htoken ((congrArg TokenKey.id hkey').trans hid')
    exact ⟨token', htoken',
      (congrArg TokenKey.userId hkey').symm.trans ((congrArg (·.userId) hbefore').trans howner)⟩
  · obtain ⟨before, hbefore, hkey', hcase⟩ := hmem htoken
    obtain ⟨before', hbefore', hkey'', hcase'⟩ := hmem hother
    have hone : before = before' := h.oneToken before hbefore before' hbefore'
      ((congrArg TokenKey.userId hkey').trans (howner.trans (congrArg TokenKey.userId hkey'').symm))
    subst hone
    -- both rows have the id of the one there was, so both were replaced or none
    have hids : token.id = other.id :=
      (congrArg TokenKey.id hkey').symm.trans (congrArg TokenKey.id hkey'')
    obtain ⟨rfl, -⟩ | ⟨-, hne⟩ := mem_replace.mp htoken
    · obtain ⟨rfl, -⟩ | ⟨-, hne'⟩ := mem_replace.mp hother
      · rfl
      · exact absurd hids.symm hne'
    · rcases hcase with rfl | rfl
      · exact absurd rfl hne
      · rcases hcase' with rfl | rfl
        · exact absurd hids hne
        · rfl
  · obtain ⟨passwordHash, hashes, hlast, hpassword, htokens⟩ := h.registered user huser hpending
    refine ⟨passwordHash, hashes, ?_, hpassword, fun token htoken howner => ?_⟩
    · show registration (db.history ++ [.verified new.toTokenKey]) user.id = _
      rw [registration_append]
      exact hlast
    · obtain ⟨before, hbefore, hkey', -⟩ := hmem htoken
      have hhash := htokens before hbefore ((congrArg TokenKey.userId hkey').trans howner)
      exact (congrArg TokenKey.tokenHash hkey') ▸ hhash

/-- An event of the reset tokens, which the other rows do not feel. -/
theorem Inv.noteReset {resets : List (TokenEntity I)} {event : Event I}
    (hissued : issued [event] = []) (hverified : verified [event] = [])
    (hregistration : ∀ userId current, event.registration userId current = current)
    (hbooks : TokenBooks resets (resetsIssued db.history ++ resetsIssued [event])
      (resetsUsed db.history ++ resetsUsed [event]))
    (hhashes : ((resetsIssued db.history ++ resetsIssued [event]).map (·.tokenHash)).Nodup) :
    Inv { db with resets, history := db.history ++ [event] } := by
  have hsame : issued (db.history ++ [event]) = issued db.history := by
    rw [issued_append, hissued, append_nil]
  refine ⟨h.userIds, ?_, ?_, ?_, ?_, fun key hkey => ?_, h.hasToken, h.oneToken,
    fun user huser hpending => ?_⟩
  · show TokenBooks _ (issued (db.history ++ _)) (verified (db.history ++ _))
    rw [hsame, verified_append, hverified, append_nil]
    exact h.tokens
  · show ((issued (db.history ++ _)).map (·.tokenHash)).Nodup
    rw [hsame]
    exact h.hashes
  · show TokenBooks _ (resetsIssued (db.history ++ _)) (resetsUsed (db.history ++ _))
    rw [resetsIssued_append, resetsUsed_append]
    exact hbooks
  · show ((resetsIssued (db.history ++ _)).map (·.tokenHash)).Nodup
    rw [resetsIssued_append]
    exact hhashes
  · have hkey : key ∈ issued (db.history ++ [event]) := hkey
    rw [hsame] at hkey
    exact h.accounts key hkey
  · show ∃ passwordHash hashes, registration (db.history ++ _) user.id = _ ∧ _
    rw [registration_append, hregistration]
    exact h.registered user huser hpending

/-- A reset token is mailed. -/
theorem Inv.issueReset (hundrawn : (Change.insertReset token).Undrawn db) : Inv { db with
      resets := db.resets ++ [token]
      history := db.history ++ [.resetIssued token.toTokenKey] } := by
  refine h.noteReset rfl rfl (fun _ _ => rfl) ?_ ?_
  · have hbooks := h.resets.issue hundrawn.1
    rwa [← append_nil (resetsUsed db.history)] at hbooks
  · rw [map_append]
    exact h.resetHashes.append (nodup_singleton _) (disjoint_singleton.mpr hundrawn.2)

/-- A reset token is used. -/
theorem Inv.useReset (new : TokenEntity I) (hrow : row ∈ db.resets)
    (hunspent : row.consumedAt = none) (hresetIssued : new.toTokenKey ∈ resetsIssued db.history)
    (hid : row.id = new.id) (hspent : new.consumedAt.isSome) (passwordHash : String) :
    Inv { db with
      resets := replace (·.id) new db.resets
      history := db.history ++ [.passwordReset new.toTokenKey passwordHash] } := by
  have hnone : resetsIssued db.history ++ resetsIssued [.passwordReset new.toTokenKey passwordHash] =
      resetsIssued db.history := append_nil _
  refine h.noteReset rfl rfl (fun _ _ => rfl) ?_ ?_
  · rw [hnone]
    exact h.resets.use hrow (fun hgone => absurd hunspent (Option.isSome_iff_ne_none.mp hgone))
      hresetIssued hid hspent
  · rw [hnone]
    exact h.resetHashes

theorem Inv.user_eq {other : Account I} (huser : user ∈ db.users)
    (hother : other ∈ db.users) (hid : user.id = other.id) : user = other :=
  inj_on_of_nodup_map h.userIds huser hother hid

/-! ### The accounts under the writes -/

theorem Inv.guarded_of_users (husers : db'.users = db.users) : Guarded db db' := by
  refine ⟨fun user huser hactive hbefore => ?_, fun before hbefore hverified => ⟨?_, ?_⟩,
    fun before hbefore _ user huser hid hpassword => ?_⟩
  · rw [husers] at huser
    exact absurd hactive (hbefore user huser rfl)
  · exact ⟨before, husers ▸ hbefore, rfl⟩
  · intro user huser hid
    rw [h.user_eq (husers ▸ huser) hbefore hid]
    exact hverified
  · rw [h.user_eq (husers ▸ huser) hbefore hid] at hpassword
    exact absurd rfl hpassword

/-- An account comes that is not active. -/
theorem Inv.guarded_of_new (hnew : new.id ∉ db.users.map (·.id))
    (hpending : new.accountStatus ≠ some "ACTIVE") (husers : db'.users = db.users ++ [new]) :
    Guarded db db' := by
  have hold : ∀ user ∈ db'.users, (user ∈ db.users) ∨ user = new := by
    intro user huser
    rw [husers] at huser
    exact (mem_append.mp huser).imp_right mem_singleton.mp
  have hsame : ∀ user ∈ db'.users, ∀ before ∈ db.users, user.id = before.id → user = before := by
    intro user huser before hbefore hid
    rcases hold user huser with hmem | rfl
    · exact h.user_eq hmem hbefore hid
    · exact absurd (hid ▸ mem_map_of_mem hbefore) hnew
  refine ⟨fun user huser hactive hbefore => ?_, fun before hbefore hverified => ⟨?_, ?_⟩,
    fun before hbefore _ user huser hid hpassword => ?_⟩
  · rcases hold user huser with hmem | rfl
    · exact absurd hactive (hbefore user hmem rfl)
    · exact absurd hactive hpending
  · exact ⟨before, husers ▸ mem_append_left _ hbefore, rfl⟩
  · intro user huser hid
    rw [hsame user huser before hbefore hid]
    exact hverified
  · exact absurd (congrArg (·.passwordHash) (hsame user huser before hbefore hid)) hpassword

/-- One account is written back. -/
theorem Inv.guarded_of_replace {row : Account I} (hrow : row ∈ db.users)
    (hid : row.id = new.id) (husers : db'.users = replace (·.id) new db.users)
    (hactivated : new.accountStatus = some "ACTIVE" → row.accountStatus ≠ some "ACTIVE" →
      ∃ token passwordHash hashes, db'.history = db.history ++ [.verified token] ∧
        token.userId = new.id ∧ registration db.history new.id = some (passwordHash, hashes) ∧
          token.tokenHash ∈ hashes ∧ new.passwordHash = some passwordHash)
    (hkept : Verified row → Verified new)
    (hpassword : row.accountStatus = some "ACTIVE" → new.passwordHash ≠ row.passwordHash →
      ∃ token passwordHash, db'.history = db.history ++ [.passwordReset token passwordHash] ∧
        token ∈ resetsIssued db.history ∧ token.userId = new.id ∧
          new.passwordHash = some passwordHash) :
    Guarded db db' := by
  have hsame : ∀ user ∈ db'.users, ∀ before ∈ db.users, user.id = before.id →
      (user = new ∧ before = row) ∨ user = before := by
    intro user huser before hbefore hsameId
    rw [husers] at huser
    obtain ⟨rfl, -⟩ | ⟨hmem, -⟩ := mem_replace.mp huser
    · exact Or.inl ⟨rfl, h.user_eq hbefore hrow (hsameId.symm.trans hid.symm)⟩
    · exact Or.inr (h.user_eq hmem hbefore hsameId)
  refine ⟨fun user huser hactive hbefore => ?_, fun before hbefore hverified => ⟨?_, ?_⟩,
    fun before hbefore hactive user huser hsameId hchanged => ?_⟩
  · rw [husers] at huser
    obtain ⟨rfl, -⟩ | ⟨hmem, -⟩ := mem_replace.mp huser
    · exact hactivated hactive (hbefore row hrow hid)
    · exact absurd hactive (hbefore user hmem rfl)
  · rw [husers]
    exact exists_replace hbefore
  · intro user huser hsameId
    rcases hsame user huser before hbefore hsameId with ⟨rfl, rfl⟩ | rfl
    · exact hkept hverified
    · exact hverified
  · rcases hsame user huser before hbefore hsameId with ⟨rfl, rfl⟩ | rfl
    · exact hpassword hactive hchanged
    · exact absurd rfl hchanged

end

/-! ### The commits -/

/-- What is asked of a commit. -/
def Keeps (db db' : Database I) : Prop := Inv db' ∧ Later db db' ∧ Guarded db db'

theorem Inv.commit_nothing (h : Inv db) (hcommit : applyAll [] db = .ok db') : Keeps db db' := by
  rw [applyAll_nil hcommit]
  exact ⟨h, prefix_refl _, h.guarded_of_users rfl⟩

theorem Inv.commit_login (h : Inv db) (now : Instant)
    (hfresh : Fresh [.updateUser user (user.recordLogin now)] db)
    (hcommit : applyAll [.updateUser user (user.recordLogin now)] db = .ok db') :
    Keeps db db' := by
  obtain ⟨mid, hmid, hrest⟩ := applyAll_cons hcommit
  obtain ⟨⟨row, hrow, hid⟩, rfl⟩ := apply_updateUser hmid
  rw [applyAll_nil hrest]
  obtain ⟨hstatus, hverified, hpassword⟩ := hfresh _ (mem_singleton.mpr rfl) row hrow hid
  refine ⟨h.replaceUser hrow hid fun hpending => ⟨fun hactive => ?_, hpassword⟩,
    prefix_refl _, h.guarded_of_replace hrow hid rfl (fun hactive hpending => ?_)
      (fun hrowVerified => ⟨?_, ?_⟩) fun _ hchanged => ?_⟩
  · exact hpending (hstatus.symm.trans hactive)
  · exact absurd (hstatus.trans hactive) hpending
  · exact hstatus.symm.trans hrowVerified.1
  · exact (congrArg Option.isSome hverified).symm.trans hrowVerified.2
  · exact absurd hpassword.symm hchanged

theorem Inv.commit_requestPasswordReset (h : Inv db)
    (hundrawn : (Change.insertReset token).Undrawn db)
    (hcommit : applyAll [.insertReset token, .note (.resetIssued token.toTokenKey)] db = .ok db') :
    Keeps db db' := by
  obtain ⟨mid, hmid, hrest⟩ := applyAll_cons hcommit
  rw [apply_insertReset hmid] at hrest
  obtain ⟨mid', hnote, hrest⟩ := applyAll_cons hrest
  rw [applyAll_nil hrest, apply_note hnote]
  exact ⟨h.issueReset hundrawn, prefix_append _ _, h.guarded_of_users rfl⟩

variable {password : String}

section

variable (h : Inv db)
include h

theorem Inv.commit_confirmPasswordReset {now : Instant}
    (hchanges : changes = [.updateUser user (user.resetPassword password now),
      .updateReset token (token.consume now), .note (.passwordReset token.toTokenKey password)])
    (hissued : token.toTokenKey ∈ resetsIssued db.history) (hunspent : token.consumedAt = none)
    (howner : user.id = token.userId) (hactive : user.accountStatus = some "ACTIVE")
    (hfresh : Fresh changes db) (hcommit : applyAll changes db = .ok db') : Keeps db db' := by
  subst hchanges
  obtain ⟨mid, hmid, hrest⟩ := applyAll_cons hcommit
  obtain ⟨⟨row, hrow, hid⟩, rfl⟩ := apply_updateUser hmid
  obtain ⟨mid', hmid', hrest⟩ := applyAll_cons hrest
  obtain ⟨⟨old, hold, holdId⟩, rfl⟩ := apply_updateReset hmid'
  obtain ⟨last, hnote, hrest⟩ := applyAll_cons hrest
  rw [applyAll_nil hrest, apply_note hnote]
  obtain ⟨hstatus, hverified, -⟩ := hfresh _ (mem_cons_self ..) row hrow hid
  have holdUnspent : old.consumedAt = none :=
    (hfresh _ (mem_cons_of_mem _ (mem_cons_self ..)) old hold holdId).trans hunspent
  have hrowActive : row.accountStatus = some "ACTIVE" := hstatus.trans hactive
  have husers : Inv { db with users := replace (·.id) (user.resetPassword password now) db.users } :=
    h.replaceUser hrow hid fun hpending => absurd hactive hpending
  refine ⟨husers.useReset (token.consume now) hold holdUnspent hissued holdId rfl password,
    prefix_append _ _, h.guarded_of_replace hrow hid rfl
      (fun _ hpending => absurd hrowActive hpending) (fun hrowVerified => ⟨hactive, ?_⟩)
      fun _ _ => ⟨token.toTokenKey, password, rfl, hissued, howner.symm, rfl⟩⟩
  exact (congrArg Option.isSome hverified).symm.trans hrowVerified.2

/-- The row of the token is the one that was loaded, and the account has the password that came
with it. -/
theorem Inv.commit_verify {now : Instant}
    (hchanges : changes = [.updateToken token (token.consume now),
      .updateUser user (user.activate now), .note (.verified token.toTokenKey)])
    (hissued : token.toTokenKey ∈ issued db.history) (hunspent : token.consumedAt = none)
    (howner : user.id = token.userId) (hfresh : Fresh changes db)
    (hcommit : applyAll changes db = .ok db') : Keeps db db' := by
  subst hchanges
  obtain ⟨mid, hmid, hrest⟩ := applyAll_cons hcommit
  obtain ⟨⟨old, hold, holdId⟩, rfl⟩ := apply_updateToken hmid
  obtain ⟨mid', hmid', hrest⟩ := applyAll_cons hrest
  obtain ⟨⟨row, hrow, hid⟩, rfl⟩ := apply_updateUser hmid'
  obtain ⟨last, hnote, hrest⟩ := applyAll_cons hrest
  rw [applyAll_nil hrest, apply_note hnote]
  have holdUnspent : old.consumedAt = none :=
    (hfresh _ (mem_cons_self ..) old hold holdId).trans hunspent
  obtain ⟨-, -, hpassword⟩ :=
    hfresh _ (mem_cons_of_mem _ (mem_cons_self ..)) row hrow hid
  have hkey : old.toTokenKey = token.toTokenKey :=
    h.tokens.key_eq (h.tokens.keys old hold) hissued holdId
  have husers : Inv { db with users := replace (·.id) (user.activate now) db.users } :=
    h.replaceUser hrow hid fun hpending => absurd rfl hpending
  refine ⟨husers.useToken (token.consume now) hold holdUnspent hissued holdId rfl,
    prefix_append _ _, h.guarded_of_replace hrow hid rfl (fun _ hpending => ?_)
      (fun _ => ⟨rfl, rfl⟩) fun _ hchanged => absurd hpassword.symm hchanged⟩
  obtain ⟨passwordHash, hashes, hlast, hsame, htokens⟩ := h.registered row hrow hpending
  have hhash : old.tokenHash ∈ hashes := htokens old hold
    ((congrArg TokenKey.userId hkey).trans (howner.symm.trans hid.symm))
  rw [hid] at hlast
  exact ⟨token.toTokenKey, passwordHash, hashes, rfl, howner.symm, hlast,
    (congrArg TokenKey.tokenHash hkey) ▸ hhash, hpassword.symm.trans hsame⟩

/-- The rows that were loaded for an account are the ones it has, as all of them could be
removed. -/
theorem Inv.loaded_all (hundrawn : (Change.insertToken token).Undrawn db) (hsome : old ≠ [])
    (hold : ∀ row ∈ old, row.toTokenKey ∈ issued db.history ∧ row.userId = token.userId)
    (hfound : ∀ row ∈ old, ∃ there ∈ db.tokens ++ [token], there.id = row.id) :
    ∀ row ∈ db.tokens, row.userId = token.userId → row.id ∈ old.map (·.id) := by
  intro row hrow howner
  obtain ⟨loaded, hloaded⟩ := exists_mem_of_ne_nil old hsome
  obtain ⟨hissued, hloadedOwner⟩ := hold loaded hloaded
  obtain ⟨there, hthere, hid⟩ := hfound loaded hloaded
  rcases mem_append.mp hthere with hmem | hnew
  · have hkey : there.toTokenKey = loaded.toTokenKey :=
      h.tokens.key_eq (h.tokens.keys there hmem) hissued hid
    have hthereOwner : there.userId = token.userId :=
      (congrArg TokenKey.userId hkey).trans hloadedOwner
    rw [h.oneToken row hrow there hmem (howner.trans hthereOwner.symm), hid]
    exact mem_map_of_mem hloaded
  · rw [mem_singleton.mp hnew] at hid
    exact absurd (hid ▸ mem_map_of_mem hissued) hundrawn.1

theorem Inv.commit_registerNew (hchanges : changes = [.insertUser user, .insertToken token,
      .note (.registered token.toTokenKey password)])
    (howner : user.id = token.userId) (hpassword : user.passwordHash = some password)
    (hpending : user.accountStatus ≠ some "ACTIVE")
    (hundrawn : (Change.insertToken token).Undrawn db)
    (hcommit : applyAll changes db = .ok db') : Keeps db db' := by
  subst hchanges
  obtain ⟨mid, hmid, hrest⟩ := applyAll_cons hcommit
  obtain ⟨hnew, rfl⟩ := apply_insertUser hmid
  obtain ⟨mid', hmid', hrest⟩ := applyAll_cons hrest
  obtain ⟨-, rfl⟩ := apply_insertToken hmid'
  obtain ⟨last, hnote, hrest⟩ := applyAll_cons hrest
  rw [applyAll_nil hrest, apply_note hnote]
  have hne : ∀ before ∈ db.users, before.id ≠ token.userId := fun before hbefore hid =>
    hnew (howner.trans hid.symm ▸ mem_map_of_mem hbefore)
  have hreg : (Event.registered token.toTokenKey password).registration user.id
      (registration db.history user.id) = some (password, [token.tokenHash]) := if_pos howner.symm
  have husers : AccountsFor db (db.users ++ [user]) (.registered token.toTokenKey password) token := by
    refine ⟨?_, fun before hbefore => ⟨before, mem_append_left _ hbefore, rfl⟩,
      fun other hother => ?_, ⟨user, mem_append_right _ (mem_singleton.mpr rfl), howner⟩,
      fun other hother hstatus => ?_⟩
    · rw [map_append, map_singleton]
      exact h.userIds.append (nodup_singleton _) (disjoint_singleton.mpr hnew)
    · rcases mem_append.mp hother with hbefore | hlast
      · exact Or.inr ⟨other, hbefore, rfl⟩
      · rw [mem_singleton.mp hlast]
        exact Or.inl howner
    · rcases mem_append.mp hother with hbefore | hlast
      · exact Or.inl ⟨hbefore, hne other hbefore⟩
      · rw [mem_singleton.mp hlast]
        exact Or.inr ⟨howner, password, _, hreg, hpassword, mem_singleton.mpr rfl⟩
  have hnone : ∀ row ∈ ([] : List (TokenEntity I)),
      row.toTokenKey ∈ issued db.history ∧ row.userId = token.userId :=
    fun row hrow => absurd hrow not_mem_nil
  have hinv := h.mail (mails_registered token.toTokenKey password) husers hundrawn hnone
    fun row hrow hid => by
      obtain ⟨before, hbefore, hid'⟩ := h.accounts _ (h.tokens.keys row hrow)
      exact absurd (hid'.trans hid) (hne before hbefore)
  have hall : (db.tokens ++ [token]).filter
      (·.id ∉ ([] : List (TokenEntity I)).map (·.id)) = db.tokens ++ [token] :=
    filter_eq_self.mpr fun row _ => decide_eq_true not_mem_nil
  rw [hall] at hinv
  exact ⟨hinv, prefix_append _ _, h.guarded_of_new hnew hpending rfl⟩

theorem Inv.commit_registerAgain {existing : Account I}
    (hchanges : changes = [.insertToken token, .updateUser existing user] ++
      old.map .deleteToken ++ [.note (.registered token.toTokenKey password)])
    (hsame : user.id = existing.id) (howner : user.id = token.userId)
    (hpassword : user.passwordHash = some password)
    (hloaded : existing.accountStatus ≠ some "ACTIVE") (hpending : user.accountStatus ≠ some "ACTIVE")
    (hundrawn : (Change.insertToken token).Undrawn db) (hsome : old ≠ [])
    (hold : ∀ row ∈ old, row.toTokenKey ∈ issued db.history ∧ row.userId = token.userId)
    (hfresh : Fresh changes db) (hcommit : applyAll changes db = .ok db') : Keeps db db' := by
  subst hchanges
  rw [List.append_assoc] at hcommit
  obtain ⟨mid, hmid, hrest⟩ := applyAll_cons hcommit
  obtain ⟨-, rfl⟩ := apply_insertToken hmid
  obtain ⟨mid', hmid', hrest⟩ := applyAll_cons hrest
  obtain ⟨⟨row, hrow, hid⟩, rfl⟩ := apply_updateUser hmid'
  obtain ⟨hfound, hrest⟩ := applyAll_deletes hrest
  obtain ⟨last, hnote, hrest⟩ := applyAll_cons hrest
  rw [applyAll_nil hrest, apply_note hnote]
  obtain ⟨hstatus, -, -⟩ := hfresh (.updateUser existing user)
    (mem_append_left _ (mem_append_left _ (mem_cons_of_mem _ (mem_cons_self ..))))
    row hrow (hid.trans hsame)
  have hrowPending : row.accountStatus ≠ some "ACTIVE" :=
    fun hactive => hloaded (hstatus.symm.trans hactive)
  have hreg : (Event.registered token.toTokenKey password).registration user.id
      (registration db.history user.id) = some (password, [token.tokenHash]) := if_pos howner.symm
  have husers : AccountsFor db (replace (·.id) user db.users)
      (.registered token.toTokenKey password) token := by
    refine ⟨?_, fun before hbefore => exists_replace hbefore, fun other hother => ?_,
      ⟨user, mem_replace.mpr (Or.inl ⟨rfl, row, hrow, hid⟩), howner⟩, fun other hother hstatus => ?_⟩
    · rw [replace_ids]
      exact h.userIds
    · obtain ⟨rfl, -⟩ | ⟨hbefore, -⟩ := mem_replace.mp hother
      · exact Or.inl howner
      · exact Or.inr ⟨other, hbefore, rfl⟩
    · obtain ⟨rfl, -⟩ | ⟨hbefore, hne⟩ := mem_replace.mp hother
      · exact Or.inr ⟨howner, password, _, hreg, hpassword, mem_singleton.mpr rfl⟩
      · exact Or.inl ⟨hbefore, fun hown => hne (hown.trans howner.symm)⟩
  exact ⟨h.mail (mails_registered token.toTokenKey password) husers hundrawn hold
      (h.loaded_all hundrawn hsome hold hfound),
    prefix_append _ _, h.guarded_of_replace hrow hid rfl
      (fun hactive _ => absurd hactive hpending) (fun hrowVerified => absurd hrowVerified.1 hrowPending)
      fun hactive _ => absurd hactive hrowPending⟩

theorem Inv.commit_resend (hchanges : changes = [.insertToken token] ++ old.map .deleteToken ++
      [.note (.resent token.toTokenKey)])
    (hundrawn : (Change.insertToken token).Undrawn db) (hsome : old ≠ [])
    (hold : ∀ row ∈ old, row.toTokenKey ∈ issued db.history ∧ row.userId = token.userId)
    (hcommit : applyAll changes db = .ok db') : Keeps db db' := by
  subst hchanges
  rw [List.append_assoc] at hcommit
  obtain ⟨mid, hmid, hrest⟩ := applyAll_cons hcommit
  obtain ⟨⟨owner, howner, hownerId⟩, rfl⟩ := apply_insertToken hmid
  obtain ⟨hfound, hrest⟩ := applyAll_deletes hrest
  obtain ⟨last, hnote, hrest⟩ := applyAll_cons hrest
  rw [applyAll_nil hrest, apply_note hnote]
  have husers : AccountsFor db db.users (.resent token.toTokenKey) token := by
    refine ⟨h.userIds, fun before hbefore => ⟨before, hbefore, rfl⟩,
      fun other hother => Or.inr ⟨other, hother, rfl⟩, ⟨owner, howner, hownerId⟩,
      fun other hother hstatus => ?_⟩
    by_cases hid : other.id = token.userId
    · obtain ⟨passwordHash, hashes, hlast, hpassword, -⟩ := h.registered other hother hstatus
      refine Or.inr ⟨hid, passwordHash, hashes ++ [token.tokenHash], ?_, hpassword,
        mem_append_right _ (mem_singleton.mpr rfl)⟩
      rw [hlast]
      exact if_pos hid.symm
    · exact Or.inl ⟨hother, hid⟩
  exact ⟨h.mail (mails_resent token.toTokenKey) husers hundrawn hold
      (h.loaded_all hundrawn hsome hold hfound), prefix_append _ _, h.guarded_of_users rfl⟩

end

end

end InvestmentPlatform.Auth.Lifecycle
