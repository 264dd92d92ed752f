/-
What the administration of roles keeps.

Everything that touches an ADMIN row holds the mutex, so between two statements of such a
transaction only accounts change.  Accounts are never removed and keep their names, and as long as
none of them falls back from ACTIVE, what was read of the roles and of the administrators still
holds at the commit.  An account does fall back where a registration that was loaded before the
verification writes its whole row back afterwards.
-/
import InvestmentPlatform.Auth.RoleAdmin
import InvestmentPlatform.Lib.Fallible
import Mathlib.Data.List.Pairwise

namespace InvestmentPlatform.Auth

open JavaText ReadCommitted List

variable {I : Type}

/-! ### Accounts -/

namespace AppUserEntity

/-- What an account is known by, which no write changes. -/
structure Same (user other : AppUserEntity I) : Prop where
  id : user.id = other.id
  issuer : user.issuer = other.issuer
  externalSubject : user.externalSubject = other.externalSubject
  normalizedEmail : user.normalizedEmail = other.normalizedEmail

theorem Same.refl (user : AppUserEntity I) : user.Same user := ⟨rfl, rfl, rfl, rfl⟩

theorem Same.trans {a b c : AppUserEntity I} (h : a.Same b) (h' : b.Same c) : a.Same c :=
  ⟨h.id.trans h'.id, h.issuer.trans h'.issuer, h.externalSubject.trans h'.externalSubject,
    h.normalizedEmail.trans h'.normalizedEmail⟩

theorem refresh_same (user : AppUserEntity I) (email passwordHash displayName : String) :
    (user.refreshPendingRegistration email passwordHash displayName).Same user :=
  ⟨rfl, rfl, rfl, rfl⟩

theorem activate_same (user : AppUserEntity I) (now : Instant) : (user.activate now).Same user :=
  ⟨rfl, rfl, rfl, rfl⟩

variable [DecidableEq I]

theorem Same.clashes {a a' b b' : AppUserEntity I} (h : a.Same a') (h' : b.Same b') :
    a.clashes b = a'.clashes b' := by
  rw [AppUserEntity.clashes, h.id, h.issuer, h.externalSubject, h.normalizedEmail, h'.id,
    h'.issuer, h'.externalSubject, h'.normalizedEmail, AppUserEntity.clashes]

theorem clashes_iff {a b : AppUserEntity I} : a.clashes b = true ↔
    a.id = b.id ∨ a.issuer = b.issuer ∧ a.externalSubject = b.externalSubject ∨
      ∃ email, a.normalizedEmail = some email ∧ b.normalizedEmail = some email := by
  unfold AppUserEntity.clashes
  simp only [Bool.or_eq_true, Bool.and_eq_true, decide_eq_true_eq, or_assoc,
    Option.isSome_iff_exists]
  refine or_congr_right (or_congr_right ⟨?_, ?_⟩)
  · rintro ⟨⟨email, hemail⟩, hsame⟩
    exact ⟨email, hemail, hsame ▸ hemail⟩
  · rintro ⟨email, ha, hb⟩
    exact ⟨⟨email, ha⟩, ha.trans hb.symm⟩

theorem clashes_comm (a b : AppUserEntity I) : a.clashes b = b.clashes a := by
  have hflip : ∀ a b : AppUserEntity I, a.clashes b = true → b.clashes a = true := by
    intro a b h
    rw [clashes_iff] at h ⊢
    rcases h with hid | ⟨hissuer, hsubject⟩ | ⟨email, ha, hb⟩
    · exact Or.inl hid.symm
    · exact Or.inr (Or.inl ⟨hissuer.symm, hsubject.symm⟩)
    · exact Or.inr (Or.inr ⟨email, hb, ha⟩)
  exact Bool.eq_iff_iff.mpr ⟨hflip a b, hflip b a⟩

end AppUserEntity

def Apart [DecidableEq I] (users : List (AppUserEntity I)) : Prop :=
  users.Pairwise fun user other => user.clashes other = false

section

variable [DecidableEq I] {users : List (AppUserEntity I)} {user other : AppUserEntity I}

/-- Two accounts that clash are one. -/
theorem Apart.eq (h : Apart users) (huser : user ∈ users) (hother : other ∈ users)
    (hclash : user.clashes other = true) : user = other := by
  by_contra hne
  have hsymm : Std.Symm fun a b : AppUserEntity I => a.clashes b = false :=
    ⟨fun a b hab => (AppUserEntity.clashes_comm b a).trans hab⟩
  have hapart := List.Pairwise.forall h huser hother hne
  rw [hclash] at hapart
  cases hapart

theorem Apart.append (h : Apart users) (hfree : users.any (user.clashes ·) = false) :
    Apart (users ++ [user]) := by
  unfold Apart
  rw [pairwise_append]
  refine ⟨h, pairwise_singleton _ _, fun a ha b hb => ?_⟩
  rw [mem_singleton.mp hb, AppUserEntity.clashes_comm]
  exact Bool.eq_false_iff.mpr (any_eq_false.mp hfree a ha)

/-- A row that is written back in the place of the one it was loaded from. -/
def writeBack (user row : AppUserEntity I) : AppUserEntity I := if row.id = user.id then user else row

theorem writeBack_same (h : Apart users) (hother : other ∈ users) (hsame : user.Same other)
    {row : AppUserEntity I} (hrow : row ∈ users) : (writeBack user row).Same row := by
  unfold writeBack
  split
  · rename_i hid
    rw [h.eq hrow hother (AppUserEntity.clashes_iff.mpr (Or.inl (hid.trans hsame.id)))]
    exact hsame
  · exact .refl row

theorem Apart.writeBack (h : Apart users) (hother : other ∈ users) (hsame : user.Same other) :
    Apart (users.map (writeBack user)) := by
  unfold Apart
  rw [pairwise_map]
  refine List.Pairwise.imp_of_mem (fun {a b} ha hb hab => ?_) h
  rw [(writeBack_same h hother hsame ha).clashes (writeBack_same h hother hsame hb)]
  exact hab

end

/-! ### What every commit keeps -/

def HasActiveAdmin (db : Database I) : Prop :=
  ∃ user ∈ db.users, user.active = true ∧ (user.id, "ADMIN") ∈ db.roles

/-- No account is lost, and none falls back. -/
def UsersGrow (db db' : Database I) : Prop :=
  ∀ user ∈ db.users, ∃ user' ∈ db'.users, user'.Same user ∧
    (user.active = true → user'.active = true)

structure SameAdmins (db db' : Database I) : Prop where
  users : UsersGrow db db'
  roles : ∀ id, (id, "ADMIN") ∈ db'.roles ↔ (id, "ADMIN") ∈ db.roles
  audit : db'.audit = db.audit

/-- Only the roles of the one account change. -/
def OnlyOf (userId : I) (db db' : Database I) : Prop :=
  ∀ id, id ≠ userId → ∀ role, (id, role) ∈ db'.roles ↔ (id, role) ∈ db.roles

theorem OnlyOf.refl (userId : I) (db : Database I) : OnlyOf userId db db := fun _ _ _ => Iff.rfl

section

variable {db db' db'' : Database I}

theorem UsersGrow.refl (db : Database I) : UsersGrow db db :=
  fun user huser => ⟨user, huser, .refl user, id⟩

theorem UsersGrow.trans (h : UsersGrow db db') (h' : UsersGrow db' db'') : UsersGrow db db'' := by
  intro user huser
  obtain ⟨user', huser', hsame, hactive⟩ := h user huser
  obtain ⟨user'', huser'', hsame', hactive'⟩ := h' user' huser'
  exact ⟨user'', huser'', hsame'.trans hsame, hactive' ∘ hactive⟩

theorem SameAdmins.refl (db : Database I) : SameAdmins db db :=
  ⟨.refl db, fun _ => Iff.rfl, rfl⟩

theorem SameAdmins.trans (h : SameAdmins db db') (h' : SameAdmins db' db'') : SameAdmins db db'' :=
  ⟨h.users.trans h'.users, fun id => (h'.roles id).trans (h.roles id), h'.audit.trans h.audit⟩

theorem SameAdmins.hasActiveAdmin (h : SameAdmins db db') (hadmin : HasActiveAdmin db) :
    HasActiveAdmin db' := by
  obtain ⟨user, huser, hactive, hrole⟩ := hadmin
  obtain ⟨user', huser', hsame, hactive'⟩ := h.users user huser
  exact ⟨user', huser', hactive' hactive, (h.roles user'.id).mpr (hsame.id ▸ hrole)⟩

end

variable [DecidableEq I] [AuthLibrary I]

/-- An account goes by the normal form of its email, where it goes by an email. -/
def AppUserEntity.Normalized (user : AppUserEntity I) : Prop :=
  ∀ normalized, user.normalizedEmail = some normalized →
    ∃ email, user.email = some email ∧ normalize I email = normalized

/-- The accounts that the audit rows, in their order, leave with ADMIN. -/
def adminsAfter (audit : List (AppUserRoleAuditEntity I)) : List I :=
  audit.foldl (fun admins row =>
    if row.role ≠ "ADMIN" then admins
    else if row.action = "GRANT" then row.userId :: admins
    else if row.action = "REVOKE" then admins.filter (· ≠ row.userId)
    else admins) []

structure Inv (db : Database I) : Prop where
  apart : Apart db.users
  normalized : ∀ user ∈ db.users, user.Normalized
  holders : ∀ id, (id, "ADMIN") ∈ db.roles → ∃ user ∈ db.users, user.id = id ∧ user.active = true
  audited : ∀ id, (id, "ADMIN") ∈ db.roles ↔ id ∈ adminsAfter db.audit

/-- An account that has become active since it was loaded is written back as it was. -/
def TakesBack (changes : List (Change I)) (db : Database I) : Prop :=
  ∃ user, .updateUser user ∈ changes ∧ user.active = false ∧
    ∃ row ∈ db.users, row.id = user.id ∧ row.active = true

def discipline : Discipline (Database I) (List (Change I)) where
  inv := Inv
  clean changes db := ¬ TakesBack changes db
  grow db db' := UsersGrow db db' ∧ (HasActiveAdmin db → HasActiveAdmin db')
  rely := SameAdmins
  grow_refl db := ⟨.refl db, id⟩
  grow_trans h h' := ⟨h.1.trans h'.1, h'.2 ∘ h.2⟩
  rely_refl := .refl
  rely_trans := .trans
  grow_of_rely h := ⟨h.users, h.hasActiveAdmin⟩

/-! ### Changes -/

section

variable {db db' : Database I} {user other : AppUserEntity I} {changes : List (Change I)}
  {change : Change I}

omit [AuthLibrary I] in
theorem applyAll_cons (h : applyAll (change :: changes) db = .ok db') :
    ∃ mid, change.apply db = .ok mid ∧ applyAll changes mid = .ok db' := by
  unfold applyAll at h
  rw [foldlM_cons] at h
  cases hfirst : change.apply db with
  | error error =>
    rw [hfirst] at h
    cases h
  | ok mid =>
    rw [hfirst] at h
    exact ⟨mid, rfl, h⟩

omit [AuthLibrary I] in
theorem applyAll_nil (h : applyAll [] db = .ok db') : db' = db := (Except.ok.inj h).symm

theorem Inv.insertUser (h : Inv db) (hnormalized : user.Normalized)
    (hok : (Change.insertUser user).apply db = .ok db') : Inv db' ∧ SameAdmins db db' ∧
      user ∈ db'.users := by
  simp only [Change.apply] at hok
  split at hok
  · cases hok
  · rename_i hfree
    cases hok
    have hkept : ∀ row ∈ db.users, row ∈ db.users ++ [user] :=
      fun row hrow => mem_append_left _ hrow
    refine ⟨⟨h.apart.append (Bool.eq_false_iff.mpr hfree), fun row hrow => ?_, fun id hrole => ?_,
      h.audited⟩, ⟨fun row hrow => ⟨row, hkept row hrow, .refl row, id⟩, fun _ => Iff.rfl, rfl⟩,
      mem_append_right _ (mem_singleton.mpr rfl)⟩
    · rcases mem_append.mp hrow with hold | hnew
      · exact h.normalized row hold
      · rw [mem_singleton.mp hnew]
        exact hnormalized
    · obtain ⟨row, hrow, hid, hactive⟩ := h.holders id hrole
      exact ⟨row, hkept row hrow, hid, hactive⟩

theorem Inv.updateUser (h : Inv db) (hnormalized : user.Normalized) (hother : other ∈ db.users)
    (hsame : user.Same other) (hactive : other.active = true → user.active = true)
    (hok : (Change.updateUser user).apply db = .ok db') : Inv db' ∧ SameAdmins db db' := by
  cases hok
  have hrow : ∀ row ∈ db.users, (writeBack user row).Same row ∧
      (row.active = true → (writeBack user row).active = true) := by
    intro row hrow
    refine ⟨writeBack_same h.apart hother hsame hrow, fun hrowActive => ?_⟩
    unfold writeBack
    split
    · rename_i hid
      rw [h.apart.eq hrow hother
        (AppUserEntity.clashes_iff.mpr (Or.inl (hid.trans hsame.id)))] at hrowActive
      exact hactive hrowActive
    · exact hrowActive
  refine ⟨⟨h.apart.writeBack hother hsame, fun row hmem => ?_, fun id hrole => ?_, h.audited⟩,
    ⟨fun row hmem => ⟨_, mem_map_of_mem hmem, (hrow row hmem).1, (hrow row hmem).2⟩,
      fun _ => Iff.rfl, rfl⟩⟩
  · obtain ⟨old, hold, rfl⟩ := mem_map.mp hmem
    split
    · exact hnormalized
    · exact h.normalized old hold
  · obtain ⟨old, hold, hid, holdActive⟩ := h.holders id hrole
    exact ⟨_, mem_map_of_mem hold, (hrow old hold).1.id.trans hid, (hrow old hold).2 holdActive⟩

theorem Inv.insertBaseRole (h : Inv db) {userId : I}
    (hok : (Change.insertRole userId "USER").apply db = .ok db') :
    Inv db' ∧ SameAdmins db db' ∧ db'.users = db.users := by
  simp only [Change.apply] at hok
  split at hok
  · cases hok
  · cases hok
    have hroles : ∀ id, (id, "ADMIN") ∈ db.roles ++ [(userId, "USER")] ↔ (id, "ADMIN") ∈ db.roles := by
      intro id
      rw [mem_append, mem_singleton]
      refine ⟨fun hor => hor.resolve_right fun heq => ?_, Or.inl⟩
      have hrole : "ADMIN" = "USER" := congrArg Prod.snd heq
      exact absurd hrole (by decide)
    exact ⟨⟨h.apart, h.normalized, fun id hrole => h.holders id ((hroles id).mp hrole),
      fun id => (hroles id).trans (h.audited id)⟩,
      ⟨fun row hrow => ⟨row, hrow, .refl row, id⟩, hroles, rfl⟩, rfl⟩

omit [AuthLibrary I] in
theorem adminsAfter_grant (audit : List (AppUserRoleAuditEntity I))
    (row : AppUserRoleAuditEntity I) (hrole : row.role = "ADMIN") (haction : row.action = "GRANT") :
    adminsAfter (audit ++ [row]) = row.userId :: adminsAfter audit := by
  unfold adminsAfter
  rw [foldl_append, foldl_cons, foldl_nil, if_neg (not_not.mpr hrole), if_pos haction]

omit [AuthLibrary I] in
theorem adminsAfter_revoke (audit : List (AppUserRoleAuditEntity I))
    (row : AppUserRoleAuditEntity I) (hrole : row.role = "ADMIN")
    (haction : row.action = "REVOKE") :
    adminsAfter (audit ++ [row]) = (adminsAfter audit).filter (· ≠ row.userId) := by
  have hne : row.action ≠ "GRANT" := by
    rw [haction]
    decide
  unfold adminsAfter
  rw [foldl_append, foldl_cons, foldl_nil, if_neg (not_not.mpr hrole), if_neg hne, if_pos haction]

theorem Inv.grant (h : Inv db) {change : RoleChange} {now : Instant} (hrole : change.role = "ADMIN")
    (hactive : ∃ row ∈ db.users, row.id = user.id ∧ row.active = true)
    (hok : applyAll [.insertRole user.id change.role,
      .insertAudit (auditRow user change "GRANT" now)] db = .ok db') :
    Inv db' ∧ db'.users = db.users ∧ (user.id, "ADMIN") ∈ db'.roles ∧
      (∀ role, role ∈ db.roles → role ∈ db'.roles) ∧ OnlyOf user.id db db' := by
  obtain ⟨mid, hinsert, hrest⟩ := applyAll_cons hok
  obtain ⟨last, haudit, hnil⟩ := applyAll_cons hrest
  cases applyAll_nil hnil
  simp only [Change.apply] at hinsert haudit
  split at hinsert
  · cases hinsert
  · cases hinsert
    split at haudit
    · cases haudit
    · cases haudit
      have hmem : ∀ id role, (id, role) ∈ db.roles ++ [(user.id, change.role)] ↔
          (id, role) ∈ db.roles ∨ id = user.id ∧ role = "ADMIN" := by
        intro id role
        rw [mem_append, mem_singleton, Prod.mk.injEq, hrole]
      refine ⟨⟨h.apart, h.normalized, fun id hid => ?_, fun id => ?_⟩, rfl,
        (hmem _ _).mpr (Or.inr ⟨rfl, rfl⟩), fun role => mem_append_left _, fun id hne role => ?_⟩
      · rcases (hmem id "ADMIN").mp hid with hold | ⟨rfl, -⟩
        · exact h.holders id hold
        · exact hactive
      · refine (hmem id "ADMIN").trans ?_
        rw [adminsAfter_grant db.audit (auditRow user change "GRANT" now) hrole rfl,
          mem_cons, h.audited]
        dsimp only [auditRow]
        exact ⟨fun hor => hor.elim Or.inr fun hand => Or.inl hand.1,
          fun hor => hor.elim (fun heq => Or.inr ⟨heq, rfl⟩) Or.inl⟩
      · exact (hmem id role).trans ⟨fun hor => hor.resolve_right fun hand => hne hand.1, Or.inl⟩

theorem Inv.revoke (h : Inv db) {change : RoleChange} {now : Instant} (hrole : change.role = "ADMIN")
    (hok : applyAll [.deleteRole user.id change.role,
      .insertAudit (auditRow user change "REVOKE" now)] db = .ok db') :
    Inv db' ∧ db'.users = db.users ∧ OnlyOf user.id db db' := by
  obtain ⟨mid, hdelete, hrest⟩ := applyAll_cons hok
  obtain ⟨last, haudit, hnil⟩ := applyAll_cons hrest
  cases applyAll_nil hnil
  cases hdelete
  simp only [Change.apply] at haudit
  split at haudit
  · cases haudit
  · cases haudit
    have hmem : ∀ id role, (id, role) ∈ db.roles.filter (· ≠ (user.id, change.role)) ↔
        (id, role) ∈ db.roles ∧ ¬ (id = user.id ∧ role = "ADMIN") := by
      intro id role
      rw [mem_filter, decide_eq_true_eq, hrole, ne_eq, Prod.mk.injEq]
    refine ⟨⟨h.apart, h.normalized, fun id hid => ?_, fun id => ?_⟩, rfl, fun id hne role => ?_⟩
    · exact h.holders id ((hmem id "ADMIN").mp hid).1
    · refine (hmem id "ADMIN").trans ?_
      rw [adminsAfter_revoke db.audit (auditRow user change "REVOKE" now) hrole rfl,
        mem_filter, decide_eq_true_eq, h.audited]
      dsimp only [auditRow]
      exact ⟨fun hand => ⟨hand.1, fun heq => hand.2 ⟨heq, rfl⟩⟩,
        fun hand => ⟨hand.1, fun hboth => hand.2 hboth.1⟩⟩
    · exact (hmem id role).trans ⟨fun hand => hand.1, fun hold => ⟨hold, fun hboth => hne hboth.1⟩⟩

end

/-! ### The transactions that hold the mutex -/

section

variable {db db' : Database I} {user : AppUserEntity I} {role operator reason : Option String}
  {now : Instant} {seen : List (Database I)}
  {post : List (Database I) → Answer I → Database I → Database I → Prop}

omit [DecidableEq I] [AuthLibrary I] in
/-- The account is there as it was loaded, apart from a later activation. -/
def Loaded (user : AppUserEntity I) (db : Database I) : Prop :=
  ∃ row ∈ db.users, row.Same user ∧ (user.active = true → row.active = true)

omit [DecidableEq I] [AuthLibrary I] in
theorem Loaded.later (h : Loaded user db) (hgrow : UsersGrow db db') : Loaded user db' := by
  obtain ⟨row, hrow, hsame, hactive⟩ := h
  obtain ⟨row', hrow', hsame', hactive'⟩ := hgrow row hrow
  exact ⟨row', hrow', hsame'.trans hsame, hactive' ∘ hactive⟩

omit [DecidableEq I] [AuthLibrary I] in
theorem loaded_of_mem (h : user ∈ db.users) : Loaded user db := ⟨user, h, .refl user, id⟩

/-- The operator of the change is not the account itself. -/
def NotSelf (user : AppUserEntity I) (operator : Option String) : Prop :=
  ∃ text, operator = some text ∧ rejectSelfManagement user (trim text) = .ok ()

omit [DecidableEq I] in
theorem checkChange_ok {change : RoleChange}
    (h : checkChange user role operator reason = .ok change) :
    change.role = "ADMIN" ∧ NotSelf user operator := by
  obtain ⟨managed, hmanaged, h⟩ := Fallible.bind_eq_ok.mp h
  obtain ⟨trimmed, htrimmed, h⟩ := Fallible.bind_eq_ok.mp h
  obtain ⟨_, hself, h⟩ := Fallible.bind_eq_ok.mp h
  obtain ⟨text, -, h⟩ := Fallible.bind_eq_ok.mp h
  cases h
  refine ⟨?_, ?_⟩
  · unfold requireManagedRole at hmanaged
    dsimp only at hmanaged
    split at hmanaged
    · rename_i hadmin
      cases hmanaged
      exact hadmin
    · cases hmanaged
  · unfold requireOperator at htrimmed
    cases operator with
    | none => cases htrimmed
    | some raw =>
      dsimp only at htrimmed
      split at htrimmed
      · cases htrimmed
      · cases htrimmed
        exact ⟨raw, rfl, hself⟩

theorem grantTo_locked (hloaded : Loaded user db)
    (hpost : ∀ seen db' db'', UsersGrow db db' → Inv db' → NotSelf user operator →
      OnlyOf user.id db' db'' → post seen .done db' db'') :
    (grantTo [] .done user role operator reason now).Locked applyAll discipline post seen db := by
  unfold grantTo
  split
  · trivial
  · rename_i change hcheck
    obtain ⟨hrole, hself⟩ := checkChange_ok hcheck
    split
    · trivial
    · rename_i hactive
      have huser : user.active = true := by
        unfold requireActive at hactive
        split at hactive
        · assumption
        · cases hactive
      intro mid hmid _
      dsimp only
      split
      · intro db' db'' hdb' hinv _ hok
        cases applyAll_nil hok
        exact ⟨hinv, discipline.grow_refl db',
          hpost _ db' db' (hmid.users.trans hdb'.users) hinv hself (.refl _ _)⟩
      · intro db' db'' hdb' hinv _ hok
        have hgrow := hmid.users.trans hdb'.users
        obtain ⟨row, hrow, hsame, hrowActive⟩ := hloaded.later hgrow
        obtain ⟨hinv', husers, -, hroles, honly⟩ :=
          hinv.grant hrole ⟨row, hrow, hsame.id, hrowActive huser⟩ hok
        refine ⟨hinv', ⟨?_, ?_⟩, hpost _ db' db'' hgrow hinv hself honly⟩
        · rw [UsersGrow, husers]
          exact UsersGrow.refl db'
        · rintro ⟨admin, hadmin, hadminActive, hadminRole⟩
          exact ⟨admin, husers ▸ hadmin, hadminActive, hroles _ hadminRole⟩

omit [AuthLibrary I] in
/-- Of two administrators one is another account. -/
theorem exists_other_admin (hapart : Apart db.users) (hcount : 1 < db.activeAdmins.length)
    (userId : I) : ∃ admin ∈ db.users, admin.id ≠ userId ∧ admin.active = true ∧
      (admin.id, "ADMIN") ∈ db.roles := by
  by_contra hnone
  have hall : ∀ admin ∈ db.activeAdmins, admin.id = userId := by
    intro admin hadmin
    obtain ⟨hmem, hactive⟩ := mem_filter.mp hadmin
    rw [Bool.and_eq_true, Database.existsByUserIdAndRole, decide_eq_true_eq] at hactive
    by_contra hne
    exact hnone ⟨admin, hmem, hne, hactive⟩
  have hfilter : Apart db.activeAdmins := List.Pairwise.filter _ hapart
  cases hlist : db.activeAdmins with
  | nil =>
    rw [hlist] at hcount
    exact absurd hcount (Nat.not_lt_zero 1)
  | cons a rest =>
    cases rest with
    | nil =>
      rw [hlist] at hcount
      exact absurd hcount (Nat.lt_irrefl 1)
    | cons b rest =>
      rw [hlist] at hfilter hall
      have hclash := (pairwise_cons.mp hfilter).1 b mem_cons_self
      have hid : a.id = b.id := (hall a mem_cons_self).trans
        (hall b (mem_cons_of_mem a mem_cons_self)).symm
      rw [AppUserEntity.clashes_iff.mpr (Or.inl hid)] at hclash
      cases hclash

theorem revokeFrom_locked (hinv : Inv db) (huser : user ∈ db.users)
    (hpost : ∀ seen db' db'', UsersGrow db db' → Inv db' → NotSelf user operator →
      OnlyOf user.id db' db'' → post seen .done db' db'') :
    (revokeFrom user role operator reason now).Locked applyAll discipline post seen db := by
  unfold revokeFrom
  split
  · trivial
  · rename_i change hcheck
    obtain ⟨hrole, hself⟩ := checkChange_ok hcheck
    intro mid hmid _
    dsimp only
    split
    · intro db' db'' hdb' hinv' _ hok
      cases applyAll_nil hok
      exact ⟨hinv', discipline.grow_refl db',
        hpost _ db' db' (hmid.users.trans hdb'.users) hinv' hself (.refl _ _)⟩
    · rename_i hheld
      -- the account holds ADMIN, so it was active where it was loaded
      have hadmin : (user.id, "ADMIN") ∈ db.roles := by
        rw [not_not, Database.existsByUserIdAndRole, decide_eq_true_eq, hrole] at hheld
        exact (hmid.roles user.id).mp hheld
      have hactive : user.active = true := by
        obtain ⟨row, hrow, hid, hrowActive⟩ := hinv.holders _ hadmin
        rwa [hinv.apart.eq hrow huser (AppUserEntity.clashes_iff.mpr (Or.inl hid))] at hrowActive
      intro count hcount hinvCount
      dsimp only
      split
      · trivial
      · rename_i hmore
        have htwo : 1 < count.activeAdmins.length := by
          by_contra hfew
          exact hmore ⟨hactive, Nat.not_lt.mp hfew⟩
        obtain ⟨other, hother, hne, hotherActive, hotherRole⟩ :=
          exists_other_admin hinvCount.apart htwo user.id
        intro db' db'' hdb' hinv' _ hok
        obtain ⟨hinv'', husers, honly⟩ := hinv'.revoke hrole hok
        obtain ⟨still, hstill, hsame, hstillActive⟩ := hdb'.users other hother
        have hstillRole : (still.id, "ADMIN") ∈ db''.roles := by
          rw [honly still.id (hsame.id ▸ hne) "ADMIN", hdb'.roles, hsame.id]
          exact hotherRole
        refine ⟨hinv'', ⟨?_, fun _ => ?_⟩, hpost _ db' db''
          ((hmid.users.trans hcount.users).trans hdb'.users) hinv' hself honly⟩
        · rw [UsersGrow, husers]
          exact UsersGrow.refl db'
        · exact ⟨still, husers ▸ hstill, hstillActive hotherActive, hstillRole⟩

end

/-! ### What each operation promises -/

omit [DecidableEq I] in
theorem normalize_trim (text : String) : normalize I (trim text) = normalize I text := by
  rw [normalize, trim_trim, normalize]

/-- The operator text is the account's id or its normalized email, or comes to one of them. -/
def Names (operator : String) (user : AppUserEntity I) : Prop :=
  operator = AuthLibrary.uuidToString user.id ∨ trim operator = AuthLibrary.uuidToString user.id ∨
    user.normalizedEmail = some operator ∨ user.normalizedEmail = some (normalize I operator)

/-- The roles of the account are what they were. -/
def RolesKept (user : AppUserEntity I) (db db' : Database I) : Prop :=
  ∀ role, (user.id, role) ∈ db'.roles ↔ (user.id, role) ∈ db.roles

/-- The token that a change of roles comes with. -/
def Operation.claims : Operation I → Option JwtClaims
  | .changeRole claims _ _ _ _ _ => some claims
  | _ => none

/-- The operator text that a change of roles comes with. -/
def Operation.operator : Operation I → Option String
  | .grantRole _ _ operator _ _ | .revokeRole _ _ operator _ _ => operator
  | _ => none

/-- The first two statements were answered that there is no ADMIN and no user. -/
def SawNobody (seen : List (Database I)) : Prop :=
  ∃ db₁ db₂ rest, seen = db₁ :: db₂ :: rest ∧ (∀ id, (id, "ADMIN") ∉ db₁.roles) ∧ db₂.users = []

/-- What a commit of the operation promises, between the database before it and after it. -/
structure Promise (operation : Operation I) (seen : List (Database I)) (answer : Answer I)
    (db db' : Database I) : Prop where
  created : answer = .bootstrap .created →
    (∀ id, (id, "ADMIN") ∉ db.roles) ∧ HasActiveAdmin db' ∧ SawNobody seen
  ownClaims : ∀ claims, operation.claims = some claims → ∀ user ∈ db.users,
    user.issuer = claims.issuer → user.externalSubject = claims.subject → RolesKept user db db'
  ownText : ∀ text, operation.operator = some text → ∀ user ∈ db.users, Names text user →
    RolesKept user db db'

section

variable {db db' db'' : Database I} {user row : AppUserEntity I}
  {email role operator reason : Option String} {now : Instant} {seen : List (Database I)}

omit [DecidableEq I] in
theorem NotSelf.not_names (h : NotSelf user operator) (hnormalized : user.Normalized)
    {text : String} (htext : operator = some text) (hsame : row.Same user) : ¬ Names text row := by
  obtain ⟨text', htext', hself⟩ := h
  cases htext.symm.trans htext'
  unfold rejectSelfManagement at hself
  dsimp only at hself
  split at hself
  · cases hself
  · rename_i hallowed
    rw [not_or, not_or] at hallowed
    obtain ⟨hid, -, hemail⟩ := hallowed
    rw [← hsame.id] at hid
    have hmail : ∀ normalized, row.normalizedEmail = some normalized →
        normalized ≠ normalize I text := by
      intro normalized hrow heq
      rw [hsame.normalizedEmail] at hrow
      obtain ⟨email, huser, hnormal⟩ := hnormalized normalized hrow
      refine hemail ?_
      rw [huser, Option.any_some, decide_eq_true_eq, normalize_trim, hnormal, heq]
    rintro (heq | heq | heq | heq)
    · rw [heq, AuthLibrary.trim_uuidToString] at hid
      exact hid (AuthLibrary.equalsIgnoreCase_refl _)
    · rw [heq] at hid
      exact hid (AuthLibrary.equalsIgnoreCase_refl _)
    · refine hmail text heq ?_
      obtain ⟨email, -, hnormal⟩ := hnormalized text (hsame.normalizedEmail ▸ heq)
      rw [← hnormal]
      exact (AuthLibrary.normalize_normalize email).symm
    · exact hmail _ heq rfl

omit [DecidableEq I] [AuthLibrary I] in
/-- An account whose id the change is not about keeps its roles. -/
theorem OnlyOf.rolesKept {id : I} (h : OnlyOf id db db') (hne : user.id ≠ id) :
    RolesKept user db db' := h user.id hne

omit [AuthLibrary I] in
theorem eq_of_same (hapart : Apart db.users) (hrow : row ∈ db.users) (hgrow : UsersGrow db' db)
    (huser : user ∈ db'.users) (hclash : ∀ other ∈ db.users, other.Same user →
      row.clashes other = true) : row.Same user := by
  obtain ⟨other, hother, hsame, -⟩ := hgrow user huser
  rw [hapart.eq hrow hother (hclash other hother hsame)]
  exact hsame

/-- What is promised of the account behind the operator text follows for the account found. -/
theorem names_kept (huser : user ∈ db.users) (hinv : Inv db) (hgrow : UsersGrow db db')
    (hinv' : Inv db') (hself : NotSelf user operator) (honly : OnlyOf user.id db' db'') :
    ∀ text, operator = some text → ∀ row ∈ db'.users, Names text row → RolesKept row db' db'' := by
  intro text htext row hrow hnames
  refine honly.rolesKept fun hid => ?_
  have hsame := eq_of_same hinv'.apart hrow hgrow huser fun other _ hother =>
    AppUserEntity.clashes_iff.mpr (Or.inl (hid.trans hother.id.symm))
  exact hself.not_names (hinv.normalized user huser) htext hsame hnames

theorem requireAccount_locked {next : AppUserEntity I → Transaction I}
    {post : List (Database I) → Answer I → Database I → Database I → Prop}
    (hnext : ∀ db user seen, Inv db → user ∈ db.users →
      (next user).Locked applyAll discipline post seen db) :
    (requireAccount email next).Locked applyAll discipline post seen db := by
  unfold requireAccount
  split
  · trivial
  · split
    · trivial
    · intro db' _ hinv
      dsimp only
      split
      · trivial
      · rename_i user hfound
        exact hnext db' user _ hinv (mem_of_find?_eq_some hfound)

omit [DecidableEq I] in
theorem promise_of_text {operation : Operation I} (hclaims : operation.claims = none)
    (h : ∀ text, operation.operator = some text → ∀ row ∈ db.users, Names text row →
      RolesKept row db db') : Promise operation seen .done db db' := by
  refine ⟨fun hanswer => ?_, fun claims hsome => ?_, h⟩
  · cases hanswer
  · cases hclaims.symm.trans hsome

omit [DecidableEq I] in
/-- An operation without an operator promises nothing else. -/
theorem promise_of_none {operation : Operation I} {answer : Answer I}
    (hclaims : operation.claims = none) (hoperator : operation.operator = none)
    (hanswer : answer = .bootstrap .created →
      (∀ id, (id, "ADMIN") ∉ db.roles) ∧ HasActiveAdmin db' ∧ SawNobody seen) :
    Promise operation seen answer db db' := by
  refine ⟨hanswer, fun claims hsome => ?_, fun text hsome => ?_⟩
  · cases hclaims.symm.trans hsome
  · cases hoperator.symm.trans hsome

theorem grantRole_free : (grantRole email role operator reason now).Free applyAll discipline
    (Promise (.grantRole email role operator reason now)) seen db := by
  intro db' _ _
  refine requireAccount_locked fun found user seen hinv huser => ?_
  refine grantTo_locked (loaded_of_mem huser) fun _ _ _ hgrow hinv' hself honly => ?_
  exact promise_of_text rfl (names_kept huser hinv hgrow hinv' hself honly)

theorem revokeRole_free : (revokeRole email role operator reason now).Free applyAll discipline
    (Promise (.revokeRole email role operator reason now)) seen db := by
  intro db' _ _
  refine requireAccount_locked fun found user seen hinv huser => ?_
  refine revokeFrom_locked hinv huser fun _ _ _ hgrow hinv' hself honly => ?_
  exact promise_of_text rfl (names_kept huser hinv hgrow hinv' hself honly)

theorem changeRole_free {claims : JwtClaims} {targetId : I} {grant : Bool} :
    (changeRole claims targetId role reason grant now).Free applyAll discipline
      (Promise (.changeRole claims targetId role reason grant now)) seen db := by
  intro start _ _
  unfold requireAdministrator
  dsimp only
  split
  · trivial
  · intro db₁ _ _
    dsimp only
    split
    · trivial
    · rename_i actor hactor
      have hmem := mem_of_find?_eq_some hactor
      have hclaims := find?_some hactor
      rw [Bool.and_eq_true, decide_eq_true_eq, decide_eq_true_eq] at hclaims
      split
      · trivial
      · intro db₂ hdb₂ _
        dsimp only
        split
        · trivial
        · split
          · trivial
          · rename_i hother
            intro db₃ hdb₃ hinv₃
            dsimp only
            split
            · trivial
            · rename_i target htarget
              have htargetMem := mem_of_find?_eq_some htarget
              have htargetId := find?_some htarget
              rw [decide_eq_true_eq] at htargetId
              have hkept : ∀ seen db' db'', UsersGrow db₃ db' → Inv db' →
                  OnlyOf target.id db' db'' →
                  Promise (.changeRole claims targetId role reason grant now) seen .done db' db'' := by
                intro seen db' db'' hgrow hinv' honly
                refine ⟨fun hanswer => ?_, fun own hown user huser hissuer hsubject => ?_,
                  fun text htext => ?_⟩
                · cases hanswer
                rotate_left
                · cases htext
                cases hown
                refine honly.rolesKept fun hid => hother ?_
                have hsame := eq_of_same hinv'.apart huser
                  ((hdb₂.users.trans hdb₃.users).trans hgrow) hmem fun other _ hsame =>
                    AppUserEntity.clashes_iff.mpr (Or.inr (Or.inl
                      ⟨(hissuer.trans hclaims.1.symm).trans hsame.issuer.symm,
                        (hsubject.trans hclaims.2.symm).trans hsame.externalSubject.symm⟩))
                rw [← hsame.id, hid, htargetId]
              split
              · exact grantTo_locked (loaded_of_mem htargetMem) fun _ _ _ hgrow hinv' _ honly =>
                  hkept _ _ _ hgrow hinv' honly
              · exact revokeFrom_locked hinv₃ htargetMem fun _ _ _ hgrow hinv' _ honly =>
                  hkept _ _ _ hgrow hinv' honly

/-! ### The transactions without the mutex, and the first administrator -/

/-- A role row of USER may follow. -/
theorem keeps_of_baseRole (hmid : Inv db' ∧ SameAdmins db db') {userId : I} {held : Bool}
    (hok : applyAll (if held then [] else [.insertRole userId "USER"]) db' = .ok db'') :
    Inv db'' ∧ SameAdmins db db'' := by
  split at hok
  · cases applyAll_nil hok
    exact hmid
  · obtain ⟨last, hrole, hnil⟩ := applyAll_cons hok
    cases applyAll_nil hnil
    obtain ⟨hinv, hsame, -⟩ := hmid.1.insertBaseRole hrole
    exact ⟨hinv, hmid.2.trans hsame⟩

theorem ensureBaseRole_free {userId : I} {change : Change I}
    {post : List (Database I) → Answer I → Database I → Database I → Prop}
    (hpost : ∀ seen db db', post seen (.registered userId) db db')
    (hkeeps : ∀ db' db'', UsersGrow db db' → Inv db' → ¬ TakesBack [change] db' →
      change.apply db' = .ok db'' → Inv db'' ∧ SameAdmins db' db'') :
    (ensureBaseRole userId [change]).Free applyAll discipline post seen db := by
  intro mid hmid _
  dsimp only
  intro db' db'' hdb' hinv hclean hok
  have hgrow := hmid.1.trans hdb'.1
  have hsplit : ∃ held : Bool, applyAll
      (change :: if held then [] else [.insertRole userId "USER"]) db' = .ok db'' := by
    cases hheld : mid.existsByUserIdAndRole userId "USER" with
    | true => exact ⟨true, by rw [hheld] at hok; exact hok⟩
    | false => exact ⟨false, by rw [hheld] at hok; exact hok⟩
  obtain ⟨held, hall⟩ := hsplit
  obtain ⟨last, hfirst, hrest⟩ := applyAll_cons hall
  have hfirstClean : ¬ TakesBack [change] db' := by
    rintro ⟨user, hmem, htaken⟩
    refine hclean ⟨user, ?_, htaken⟩
    rw [mem_singleton.mp hmem]
    split
    · exact mem_cons_self
    · exact mem_cons_self
  have hend := keeps_of_baseRole (hkeeps db' last hgrow hinv hfirstClean hfirst) hrest
  exact ⟨hend.1, hend.2, hpost _ _ _⟩

/-- A row that is written back goes over the account that it was loaded from. -/
theorem keeps_of_updateUser (hloaded : user ∈ db.users) (hsame : row.Same user)
    (hnormalized : row.Normalized) (hgrow : UsersGrow db db') (hinv : Inv db')
    (hclean : ¬ TakesBack [.updateUser row] db')
    (hok : (Change.updateUser row).apply db' = .ok db'') : Inv db'' ∧ SameAdmins db' db'' := by
  obtain ⟨other, hother, hsame', -⟩ := hgrow user hloaded
  refine hinv.updateUser hnormalized hother (hsame.trans ⟨hsame'.id.symm, hsame'.issuer.symm,
    hsame'.externalSubject.symm, hsame'.normalizedEmail.symm⟩) (fun hactive => ?_) hok
  by_contra hpending
  exact hclean ⟨row, mem_singleton.mpr rfl, Bool.eq_false_iff.mpr hpending, other, hother,
    hsame'.id.trans hsame.id.symm, hactive⟩

theorem register_free {issuer : String} {request : RegisterRequest} {newId : I} :
    (register issuer request newId).Free applyAll discipline
      (Promise (.register issuer request newId)) seen db := by
  have hpost : ∀ userId seen db db',
      Promise (.register issuer request newId) seen (.registered userId) db db' := by
    intro userId seen db db'
    refine promise_of_none rfl rfl fun hanswer => ?_
    cases hanswer
  unfold register
  dsimp only
  split
  · trivial
  · intro db₁ _ _
    dsimp only
    split
    · refine ensureBaseRole_free (hpost _) fun db' db'' _ hinv _ hok => ?_
      have hnormalized : (localUser newId (AuthLibrary.uuidToString newId) issuer
          (trim request.email) (normalize I request.email)
          (AuthLibrary.encode I request.password)
          (trim (trim request.firstName ++ " " ++ trim request.lastName))).Normalized := by
        intro normalized heq
        cases heq
        exact ⟨_, rfl, normalize_trim _⟩
      obtain ⟨hinv', hsame, -⟩ := hinv.insertUser hnormalized hok
      exact ⟨hinv', hsame⟩
    · rename_i existing hfound
      have hmem := mem_of_find?_eq_some hfound
      have hname := find?_some hfound
      rw [decide_eq_true_eq] at hname
      split
      · trivial
      · split
        · trivial
        · refine ensureBaseRole_free (hpost _) fun db' db'' hgrow hinv hclean hok =>
            keeps_of_updateUser hmem (existing.refresh_same _ _ _) ?_ hgrow hinv hclean hok
          intro normalized heq
          cases hname.symm.trans heq
          exact ⟨_, rfl, normalize_trim _⟩

theorem verify_free {userId : I} : (verify userId now).Free applyAll discipline
    (Promise (.verify userId now)) seen db := by
  intro db₁ _ hinv₁
  dsimp only
  split
  · trivial
  · rename_i found hfound
    have hmem := mem_of_find?_eq_some hfound
    split
    · trivial
    · intro db' db'' hdb' hinv hclean hok
      obtain ⟨last, hupdate, hnil⟩ := applyAll_cons hok
      cases applyAll_nil hnil
      have hend := keeps_of_updateUser hmem (found.activate_same now)
        (hinv₁.normalized found hmem) hdb'.1 hinv hclean hupdate
      refine ⟨hend.1, hend.2, promise_of_none rfl rfl fun hanswer => ?_⟩
      cases hanswer

omit [DecidableEq I] in
theorem firstAdmin_normalized {issuer mail password : String} {newId : I} :
    (firstAdmin issuer mail password newId now).Normalized := by
  intro normalized heq
  cases heq
  exact ⟨_, rfl, normalize_trim _⟩

/-- The first administrator is made in one commit. -/
theorem keeps_of_firstAdmin (hinv : Inv db) {change : RoleChange} (hactive : user.active = true)
    (hnormalized : user.Normalized) (hrole : change.role = "ADMIN")
    (hok : applyAll ([.insertUser user, .insertRole user.id "USER"] ++
      [.insertRole user.id change.role, .insertAudit (auditRow user change "GRANT" now)]) db =
        .ok db') :
    Inv db' ∧ UsersGrow db db' ∧ HasActiveAdmin db' := by
  obtain ⟨mid₁, hinsert, hrest⟩ := applyAll_cons hok
  obtain ⟨mid₂, hbase, hrest⟩ := applyAll_cons hrest
  obtain ⟨hinv₁, hsame₁, hmem⟩ := hinv.insertUser hnormalized hinsert
  obtain ⟨hinv₂, hsame₂, husers⟩ := hinv₁.insertBaseRole hbase
  have hmem₂ : user ∈ mid₂.users := husers ▸ hmem
  obtain ⟨hinv', husers', hadmin, -, -⟩ := hinv₂.grant hrole ⟨user, hmem₂, rfl, hactive⟩ hrest
  refine ⟨hinv', ?_, user, husers' ▸ hmem₂, hactive, hadmin⟩
  rw [UsersGrow, husers']
  exact hsame₁.users.trans hsame₂.users

theorem bootstrap_free {issuer : String} {password : Option String} {newId : I} :
    (bootstrap issuer email password newId now).Free applyAll discipline
      (Promise (.bootstrap issuer email password newId now)) [] db := by
  intro db₀ _ _ db₁ hdb₁ _
  dsimp only
  split
  · intro db' db'' _ hinv _ hok
    cases applyAll_nil hok
    refine ⟨hinv, discipline.grow_refl db', promise_of_none rfl rfl fun hanswer => ?_⟩
    cases hanswer
  · rename_i hnone
    have hnone₁ : ∀ id, (id, "ADMIN") ∉ db₁.roles := by
      intro id hmem
      exact hnone (any_eq_true.mpr ⟨_, hmem, decide_eq_true rfl⟩)
    intro db₂ hdb₂ _
    dsimp only
    split
    · intro db' db'' _ hinv _ hok
      cases applyAll_nil hok
      refine ⟨hinv, discipline.grow_refl db', promise_of_none rfl rfl fun hanswer => ?_⟩
      cases hanswer
    · rename_i hempty
      have hempty₂ : db₂.users = [] := length_eq_zero_iff.mp (Nat.eq_zero_of_not_pos hempty)
      split
      · trivial
      · trivial
      · rename_i mail password _ _
        intro db₃ hdb₃ _
        unfold grantTo
        split
        · trivial
        · rename_i change hcheck
          obtain ⟨hrole, -⟩ := checkChange_ok hcheck
          split
          · trivial
          · intro db₄ hdb₄ _
            have hsame : SameAdmins db₁ db₄ := (hdb₂.trans hdb₃).trans hdb₄
            dsimp only
            split
            · rename_i hheld
              rw [Database.existsByUserIdAndRole, decide_eq_true_eq, hrole] at hheld
              exact absurd ((hsame.roles _).mp hheld) (hnone₁ _)
            · intro db' db'' hdb' hinv _ hok
              obtain ⟨hinv', hgrow, hadmin⟩ :=
                keeps_of_firstAdmin hinv rfl firstAdmin_normalized hrole hok
              refine ⟨hinv', ⟨hgrow, fun _ => hadmin⟩, promise_of_none rfl rfl fun _ =>
                ⟨fun id hmem => ?_, hadmin, db₁, db₂, [db₄], rfl, hnone₁, hempty₂⟩⟩
              exact hnone₁ id ((hsame.roles id).mp ((hdb'.roles id).mp hmem))

/-- Every operation keeps its promise by itself. -/
theorem transaction_free (operation : Operation I) (db : Database I) :
    operation.transaction.Free applyAll discipline (Promise operation) [] db := by
  cases operation with
  | grantRole email role operator reason now => exact grantRole_free
  | revokeRole email role operator reason now => exact revokeRole_free
  | changeRole claims targetId role reason grant now => exact changeRole_free
  | bootstrap issuer email password newId now => exact bootstrap_free
  | register issuer request newId => exact register_free
  | verify userId now => exact verify_free

end

/-! ### All of them together -/

section

variable {T : Type} [DecidableEq T] {operations : T → Operation I}

variable (I T) in
abbrev AuthState := ReadCommitted.State (Database I) (List (Change I)) AuthError (Answer I) T

/-- The transaction has created the first administrator. -/
def Created (state : AuthState I T) (t : T) (seen : List (Database I)) : Prop :=
  state.threads t = .ended seen (.ok (.bootstrap .created))

/-- What holds in every state. -/
structure Kept (state : AuthState I T) : Prop where
  holders : ∀ id, (id, "ADMIN") ∈ state.store.roles →
    ∃ user ∈ state.store.users, user.id = id ∧ user.active = true
  audited : ∀ id, (id, "ADMIN") ∈ state.store.roles ↔ id ∈ adminsAfter state.store.audit
  created : ∀ t seen, Created state t seen → SawNobody seen
  createdOnce : ∀ t t' seen seen', Created state t seen → Created state t' seen' → t = t'

/-- What holds of a step that the operation takes. -/
structure StepKept (operation : Operation I) (t : T) (state state' : AuthState I T) : Prop where
  failed : ∀ seen error, state'.threads t = .ended seen (.error error) →
    state'.store = state.store
  ownClaims : ∀ claims, operation.claims = some claims → ∀ user ∈ state.store.users,
    user.issuer = claims.issuer → user.externalSubject = claims.subject →
      RolesKept user state.store state'.store
  ownText : ∀ text, operation.operator = some text → ∀ user ∈ state.store.users,
    Names text user → RolesKept user state.store state'.store
  granted : ∀ id, (id, "ADMIN") ∉ state.store.roles → (id, "ADMIN") ∈ state'.store.roles →
    ∃ user ∈ state'.store.users, user.id = id ∧ user.active = true
  stays : HasActiveAdmin state.store → HasActiveAdmin state'.store

theorem inv_of_fresh {db : Database I} (h : Fresh db) : Inv db :=
  ⟨h.apart, h.normalized, fun id hmem => absurd hmem (h.noAdmin id), fun id =>
    ⟨fun hmem => absurd hmem (h.noAdmin id), fun hmem => by
      rw [h.noAudit] at hmem
      exact absurd hmem not_mem_nil⟩⟩

/-- The parts are sound, and a bootstrap that created leaves an administrator. -/
structure Good (operations : T → Operation I) (state : AuthState I T) : Prop where
  sound : Sound applyAll discipline (fun t => Promise (operations t)) state
  created : ∀ t seen, Created state t seen → HasActiveAdmin state.store ∧ SawNobody seen
  createdOnce : ∀ t t' seen seen', Created state t seen → Created state t' seen' → t = t'

omit [DecidableEq T] in
theorem Good.kept {state : AuthState I T} (h : Good operations state) : Kept state :=
  ⟨h.sound.inv.holders, h.sound.inv.audited, fun t seen hcreated => (h.created t seen hcreated).2,
    h.createdOnce⟩

theorem good_of_init {state : AuthState I T} (hinit : (machine operations).init state) :
    Good operations state := by
  have hnone : ∀ t seen, ¬ Created state t seen := by
    intro t seen hcreated
    cases (hinit.2.2 t).symm.trans hcreated
  refine ⟨sound_of_init (fun _ => inv_of_fresh) (fun t s => transaction_free (operations t) s) hinit,
    fun t seen hcreated => absurd hcreated (hnone t seen),
    fun t _ seen _ hcreated _ => absurd hcreated (hnone t seen)⟩

variable {state state' : AuthState I T} {action : ReadCommitted.Action AuthError T}

/-- What a step promises, whoever takes it. -/
theorem Good.stepKept (h : Good operations state) (hclean : Clean discipline state action)
    (hexec : state.exec applyAll action = some state') :
    StepKept (operations action.thread) action.thread state state' := by
  obtain ⟨hsound, hgrow, hchange⟩ := h.sound.step hclean hexec
  have hpromise : state'.store = state.store ∨ ∃ seen answer,
      Promise (operations action.thread) seen answer state.store state'.store :=
    hchange.imp And.left fun ⟨seen, answer, _, hkept⟩ => ⟨seen, answer, hkept⟩
  refine ⟨fun seen error hfailed => store_of_failed hexec hfailed,
    fun claims hclaims user huser hissuer hsubject => ?_, fun text htext user huser hnames => ?_,
    fun id _ hmem => hsound.inv.holders id hmem, hgrow.2⟩
  · rcases hpromise with hstore | ⟨seen, answer, hkept⟩
    · rw [hstore]
      exact fun _ => Iff.rfl
    · exact hkept.ownClaims claims hclaims user huser hissuer hsubject
  · rcases hpromise with hstore | ⟨seen, answer, hkept⟩
    · rw [hstore]
      exact fun _ => Iff.rfl
    · exact hkept.ownText text htext user huser hnames

/-- A bootstrap that has created was there before, or is the one that takes the step. -/
theorem Good.created_cases (h : Good operations state) (hclean : Clean discipline state action)
    (hexec : state.exec applyAll action = some state') {t : T} {seen : List (Database I)}
    (hcreated : Created state' t seen) : Created state t seen ∨
      t = action.thread ∧ (∀ id, (id, "ADMIN") ∉ state.store.roles) ∧
        HasActiveAdmin state'.store ∧ SawNobody seen := by
  by_cases ht : t = action.thread
  · subst ht
    refine Or.inr ⟨rfl, ?_⟩
    rcases (h.sound.step hclean hexec).2.2 with ⟨-, hnone⟩ | ⟨seen', answer, hended, hkept⟩
    · exact absurd hcreated (hnone seen _)
    · cases hended.symm.trans hcreated
      exact hkept.created rfl
  · exact Or.inl ((threads_of_exec hexec ht).symm.trans hcreated)

theorem Good.step (h : Good operations state) (hclean : Clean discipline state action)
    (hexec : state.exec applyAll action = some state') : Good operations state' := by
  obtain ⟨hsound, hgrow, -⟩ := h.sound.step hclean hexec
  -- one that has created before leaves an administrator that the other would have seen
  have hlate : ∀ t seen, Created state t seen → ¬ ∀ id, (id, "ADMIN") ∉ state.store.roles := by
    intro t seen hcreated hnone
    obtain ⟨⟨user, -, -, hrole⟩, -⟩ := h.created t seen hcreated
    exact hnone user.id hrole
  refine ⟨hsound, fun t seen hcreated => ?_, fun t t' seen seen' hcreated hcreated' => ?_⟩
  · rcases h.created_cases hclean hexec hcreated with hold | ⟨-, -, hadmin, hsaw⟩
    · exact ⟨hgrow.2 (h.created t seen hold).1, (h.created t seen hold).2⟩
    · exact ⟨hadmin, hsaw⟩
  · rcases h.created_cases hclean hexec hcreated with hold | ⟨rfl, hnone, -⟩
    · rcases h.created_cases hclean hexec hcreated' with hold' | ⟨-, hnone, -⟩
      · exact h.createdOnce t t' seen seen' hold hold'
      · exact absurd hnone (hlate t seen hold)
    · rcases h.created_cases hclean hexec hcreated' with hold' | ⟨rfl, -⟩
      · exact absurd hnone (hlate t' seen' hold')
      · rfl

variable {start : AuthState I T} {trace : List (ReadCommitted.Action AuthError T)}

theorem Good.run (h : Good operations start)
    (hrun : ((machine operations).restrict (Clean discipline)).Run start trace state) :
    Good operations state := by
  induction hrun with
  | nil => exact h
  | cons hstep _ ih => exact ih (h.step hstep.1 hstep.2)

/-- **As long as no commit writes a pending copy over an account that has become active since, in
every state each ADMIN is active, the audit rows come to the administrators and the first one was
made once, and no step loses the last of them.** -/
theorem role_admin_of_clean (hinit : (machine operations).init start)
    (hrun : ((machine operations).restrict (Clean discipline)).Run start trace state) :
    Kept state ∧ ∀ action state', Clean discipline state action →
      (machine operations).step state action state' →
        StepKept (operations action.thread) action.thread state state' := by
  have hgood := (good_of_init hinit).run hrun
  exact ⟨hgood.kept, fun action state' hclean hexec => hgood.stepKept hclean hexec⟩

end

/-! ### Two runs -/

instance : AuthLibrary Bool where
  uuidToString id := if id then "b2" else "a1"
  toLowerCase := id
  toUpperCase := id
  equalsIgnoreCase text other := text = other
  encode _ := "$2a$10$"
  trim_uuidToString := by decide
  equalsIgnoreCase_refl _ := decide_eq_true rfl
  normalize_normalize := trim_trim

def Change.takesBack (db : Database Bool) : Change Bool → Bool
  | .updateUser user => !user.active && db.users.any fun row => row.id = user.id && row.active
  | _ => false

theorem not_takesBack (changes : List (Change Bool)) (db : Database Bool)
    (h : (!changes.any (Change.takesBack db)) = true) : discipline.clean changes db := by
  rintro ⟨user, hmem, hpending, row, hrow, hid, hactive⟩
  rw [Bool.not_eq_true', any_eq_false] at h
  refine h _ hmem ?_
  rw [Change.takesBack, hpending, Bool.not_false, Bool.true_and, any_eq_true]
  exact ⟨row, hrow, by rw [hactive, Bool.and_true, decide_eq_true_eq]; exact hid⟩

def startsWith (users : List (AppUserEntity Bool)) (roles : List (Bool × String))
    (operations : Nat → Operation Bool) : AuthState Bool Nat where
  store := ⟨users, roles, []⟩
  holder := none
  threads t := .running [] (operations t).transaction

def runs (threads : List Nat) : List (ReadCommitted.Action AuthError Nat) := threads.map .run

def request : RegisterRequest := ⟨"b@b.co", "b long password", "B", "B"⟩

/-- The first administrator, a second account that is verified and made ADMIN, and the first one
removed. -/
def handover : Nat → Operation Bool
  | 0 => .bootstrap "local" (some "a@a.co") (some "a long password") false 1
  | 1 => .register "local" request true
  | 2 => .verify true 2
  | 3 => .grantRole (some "b@b.co") (some "ADMIN") (some "ops") (some "second") 3
  | _ => .changeRole ⟨"local", "b2", ["ADMIN"]⟩ false (some "ADMIN") (some "left") false 4

def handoverSteps : List (ReadCommitted.Action AuthError Nat) :=
  runs [0, 0, 0, 0, 0, 0, 1, 1, 1, 2, 2, 3, 3, 3, 3, 4, 4, 4, 4, 4, 4, 4]

def handedOver : Option (AuthState Bool Nat) :=
  handoverSteps.foldlM (State.guarded applyAll fun changes db => !changes.any (Change.takesBack db))
    (startsWith [] [] handover)

omit [AuthLibrary I] in
theorem hasActiveAdmin_iff {db : Database I} : HasActiveAdmin db ↔ db.activeAdmins ≠ [] := by
  constructor
  · rintro ⟨user, huser, hactive, hrole⟩ hnil
    have hmem : user ∈ db.activeAdmins := by
      refine mem_filter.mpr ⟨huser, ?_⟩
      rw [hactive, Bool.true_and, Database.existsByUserIdAndRole, decide_eq_true_eq]
      exact hrole
    rw [hnil] at hmem
    exact absurd hmem not_mem_nil
  · intro hsome
    obtain ⟨user, hmem⟩ := exists_mem_of_ne_nil _ hsome
    obtain ⟨huser, hboth⟩ := mem_filter.mp hmem
    rw [Bool.and_eq_true, Database.existsByUserIdAndRole, decide_eq_true_eq] at hboth
    exact ⟨user, huser, hboth⟩

theorem fresh_nil : Fresh (I := Bool) ⟨[], [], []⟩ :=
  ⟨List.Pairwise.nil, fun _ hmem => absurd hmem not_mem_nil, fun _ => not_mem_nil, rfl⟩

theorem handedOver_isSome : handedOver.isSome = true := by rfl

theorem role_admin_of_clean_sample : Kept (handedOver.get handedOver_isSome) ∧
    ∀ action state', Clean discipline (handedOver.get handedOver_isSome) action →
      (machine handover).step (handedOver.get handedOver_isSome) action state' →
        StepKept (handover action.thread) action.thread (handedOver.get handedOver_isSome)
          state' :=
  role_admin_of_clean ⟨fresh_nil, rfl, fun _ => rfl⟩
    (run_of_guarded not_takesBack (Option.some_get handedOver_isSome).symm)

/-- The account of the request registers once more, and is verified and made ADMIN meanwhile. -/
def twice : Nat → Operation Bool
  | 0 => .register "local" request true
  | 1 => .verify true 2
  | _ => .grantRole (some "b@b.co") (some "ADMIN") (some "ops") (some "first") 3

def pending : AppUserEntity Bool :=
  localUser true "b2" "local" "b@b.co" "b@b.co" "$2a$10$" "B B"

theorem fresh_pending : Fresh (I := Bool) ⟨[pending], [(true, "USER")], []⟩ := by
  refine ⟨pairwise_singleton _ _, fun user huser normalized heq => ?_, fun id hmem => ?_, rfl⟩
  · cases mem_singleton.mp huser
    cases heq
    exact ⟨"b@b.co", rfl, by rfl⟩
  · have hrole : "ADMIN" = "USER" := congrArg Prod.snd (mem_singleton.mp hmem)
    exact absurd hrole (by decide)

def atWork : Option (AuthState Bool Nat) :=
  (runs [0, 0, 1, 1, 2, 2, 2, 2]).foldlM (State.exec applyAll)
    (startsWith [pending] [(true, "USER")] twice)

theorem atWork_isSome : atWork.isSome = true := by rfl

/-- The registration writes back what it loaded. -/
def overwritten : Option (AuthState Bool Nat) :=
  (atWork.get atWork_isSome).exec applyAll (.run 0)

theorem overwritten_isSome : overwritten.isSome = true := by rfl

/-- **A registration takes the only administrator back to pending**, and nobody is left who may
grant the role. -/
theorem last_admin_lost :
    (machine twice).Reachable (atWork.get atWork_isSome) ∧
      HasActiveAdmin (atWork.get atWork_isSome).store ∧
      (machine twice).step (atWork.get atWork_isSome) (.run 0)
        (overwritten.get overwritten_isSome) ∧
      ¬ HasActiveAdmin (overwritten.get overwritten_isSome).store := by
  have hrun : (machine twice).Run (startsWith [pending] [(true, "USER")] twice)
      (runs [0, 0, 1, 1, 2, 2, 2, 2]) (atWork.get atWork_isSome) :=
    run_of_foldlM (Option.some_get atWork_isSome).symm
  refine ⟨hrun.reachable (.init ⟨fresh_pending, rfl, fun _ => rfl⟩), ?_,
    (Option.some_get overwritten_isSome).symm, ?_⟩
  · rw [hasActiveAdmin_iff]
    decide
  · rw [hasActiveAdmin_iff, not_not]
    rfl

end InvestmentPlatform.Auth
