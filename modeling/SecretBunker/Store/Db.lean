import SecretBunker.Lib.Table
import SecretBunker.Proto

/-!
# database の schema

`src/store.rs` の `SCHEMA`。表ごとの一意制約は `Row` の instance が、
外部キーは `Db` の field が運ぶので、制約に反した `Db` は作れない。

`created_at` は、それを読む関数がある `secret_version` にだけ残す。
-/

namespace SecretBunker

open Relational

/-- `meta` の行。 -/
structure MetaRow where
  key : String
  value : String
  deriving DecidableEq

/-- `identity` の行。 -/
structure Identity where
  id : Nat
  endpointId : String
  name : String
  serviceAdmin : Bool
  deriving DecidableEq

/-- `secret_group` の行。 -/
structure GroupRow where
  id : Nat
  name : String
  deriving DecidableEq

/-- `group_acl` の行。 -/
structure AclRow where
  identityId : Nat
  groupId : Nat
  perms : UInt8
  deriving DecidableEq

/-- `group_dek` の行。 -/
structure DekRow where
  groupId : Nat
  version : Nat
  deriving DecidableEq

/-- `dek_wrap` の行。 -/
structure WrapRow where
  groupId : Nat
  dekVersion : Nat
  recipient : String
  wrapped : Bytes
  deriving DecidableEq

/-- `secret` の行。 -/
structure SecretRow where
  id : Nat
  groupId : Nat
  name : String
  currentVersion : Nat
  deriving DecidableEq

/-- `secret_version` の行。 -/
structure VersionRow where
  secretId : Nat
  version : Nat
  dekVersion : Nat
  nonce : Bytes
  ciphertext : Bytes
  createdAt : Int
  createdBy : String
  deriving DecidableEq

/-- `audit_log` の行。 -/
structure AuditRow where
  ts : Int
  endpointId : String
  op : String
  target : String
  outcome : String
  prevHash : Bytes
  hash : Bytes
  deriving DecidableEq

/-! ## 一意制約 -/

instance : Row MetaRow where
  Conflict a b := a.key = b.key
  decConflict _ _ := inferInstanceAs (Decidable (_ = _))
  refl _ := rfl
  symm _ _ h := h.symm

instance : Row Identity where
  Conflict a b := a.id = b.id ∨ a.endpointId = b.endpointId ∨ a.name = b.name
  decConflict _ _ := inferInstanceAs (Decidable (_ ∨ _ ∨ _))
  refl _ := Or.inl rfl
  symm _ _ h := h.imp Eq.symm (Or.imp Eq.symm Eq.symm)

instance : Row GroupRow where
  Conflict a b := a.id = b.id ∨ a.name = b.name
  decConflict _ _ := inferInstanceAs (Decidable (_ ∨ _))
  refl _ := Or.inl rfl
  symm _ _ h := h.imp Eq.symm Eq.symm

instance : Row AclRow where
  Conflict a b := a.identityId = b.identityId ∧ a.groupId = b.groupId
  decConflict _ _ := inferInstanceAs (Decidable (_ ∧ _))
  refl _ := ⟨rfl, rfl⟩
  symm _ _ h := ⟨h.1.symm, h.2.symm⟩

instance : Row DekRow where
  Conflict a b := a.groupId = b.groupId ∧ a.version = b.version
  decConflict _ _ := inferInstanceAs (Decidable (_ ∧ _))
  refl _ := ⟨rfl, rfl⟩
  symm _ _ h := ⟨h.1.symm, h.2.symm⟩

instance : Row WrapRow where
  Conflict a b := a.groupId = b.groupId ∧ a.dekVersion = b.dekVersion ∧ a.recipient = b.recipient
  decConflict _ _ := inferInstanceAs (Decidable (_ ∧ _ ∧ _))
  refl _ := ⟨rfl, rfl, rfl⟩
  symm _ _ h := ⟨h.1.symm, h.2.1.symm, h.2.2.symm⟩

instance : Row SecretRow where
  Conflict a b := a.id = b.id ∨ (a.groupId = b.groupId ∧ a.name = b.name)
  decConflict _ _ := inferInstanceAs (Decidable (_ ∨ _ ∧ _))
  refl _ := Or.inl rfl
  symm _ _ h := h.imp Eq.symm fun h => ⟨h.1.symm, h.2.symm⟩

instance : Row VersionRow where
  Conflict a b := a.secretId = b.secretId ∧ a.version = b.version
  decConflict _ _ := inferInstanceAs (Decidable (_ ∧ _))
  refl _ := ⟨rfl, rfl⟩
  symm _ _ h := ⟨h.1.symm, h.2.symm⟩

/-- database。`audit_log` は追記だけなので列で持つ。 -/
@[ext] structure Db where
  metadata : Table MetaRow
  identity : Table Identity
  secretGroup : Table GroupRow
  groupAcl : Table AclRow
  groupDek : Table DekRow
  dekWrap : Table WrapRow
  secret : Table SecretRow
  secretVersion : Table VersionRow
  auditLog : List AuditRow
  aclIdentity : groupAcl.References (·.identityId) identity (·.id)
  aclGroup : groupAcl.References (·.groupId) secretGroup (·.id)
  dekGroup : groupDek.References (·.groupId) secretGroup (·.id)
  wrapGroup : dekWrap.References (·.groupId) secretGroup (·.id)
  secretInGroup : secret.References (·.groupId) secretGroup (·.id)
  versionOfSecret : secretVersion.References (·.secretId) secret (·.id)

namespace Db

/-- 表を作っただけの database。 -/
def empty : Db where
  metadata := Table.empty
  identity := Table.empty
  secretGroup := Table.empty
  groupAcl := Table.empty
  groupDek := Table.empty
  dekWrap := Table.empty
  secret := Table.empty
  secretVersion := Table.empty
  auditLog := []
  aclIdentity := Table.References.empty
  aclGroup := Table.References.empty
  dekGroup := Table.References.empty
  wrapGroup := Table.References.empty
  secretInGroup := Table.References.empty
  versionOfSecret := Table.References.empty

variable (db : Db)

/-! ## 表の差し替え -/

/-- `meta` を置き換える。 -/
def withMeta (t : Table MetaRow) : Db := { db with metadata := t }

/-- identity の表を差し替える。いまある id は残る。 -/
def withIdentities (t : Table Identity) (h : ∀ i ∈ db.identity, ∃ i' ∈ t, i'.id = i.id) : Db :=
  { db with identity := t, aclIdentity := db.aclIdentity.mono (fun _ hr => hr) h }

/-- group の表に行を足す。 -/
def withGroups (t : Table GroupRow) (h : ∀ g ∈ db.secretGroup, g ∈ t) : Db :=
  { db with
    secretGroup := t
    aclGroup := db.aclGroup.mono (fun _ hr => hr) fun g hg => ⟨g, h g hg, rfl⟩
    dekGroup := db.dekGroup.mono (fun _ hr => hr) fun g hg => ⟨g, h g hg, rfl⟩
    wrapGroup := db.wrapGroup.mono (fun _ hr => hr) fun g hg => ⟨g, h g hg, rfl⟩
    secretInGroup := db.secretInGroup.mono (fun _ hr => hr) fun g hg => ⟨g, h g hg, rfl⟩ }

/-- `group_acl` を置き換える。 -/
def withAcl (t : Table AclRow) (hi : t.References (·.identityId) db.identity (·.id))
    (hg : t.References (·.groupId) db.secretGroup (·.id)) : Db :=
  { db with groupAcl := t, aclIdentity := hi, aclGroup := hg }

/-- `group_dek` を置き換える。 -/
def withDeks (t : Table DekRow) (h : t.References (·.groupId) db.secretGroup (·.id)) : Db :=
  { db with groupDek := t, dekGroup := h }

/-- `dek_wrap` を置き換える。 -/
def withWraps (t : Table WrapRow) (h : t.References (·.groupId) db.secretGroup (·.id)) : Db :=
  { db with dekWrap := t, wrapGroup := h }

/-- `secret` と `secret_version` を置き換える。 -/
def withSecrets (t : Table SecretRow) (u : Table VersionRow)
    (hg : t.References (·.groupId) db.secretGroup (·.id))
    (hv : u.References (·.secretId) t (·.id)) : Db :=
  { db with secret := t, secretVersion := u, secretInGroup := hg, versionOfSecret := hv }

/-- `audit_log` を置き換える。 -/
def withAudit (log : List AuditRow) : Db := { db with auditLog := log }

/-! ## `meta` -/

/-- INSERT … ON CONFLICT (key) DO UPDATE -/
def upsertMeta (key value : String) : Db := db.withMeta (db.metadata.upsert ⟨key, value⟩)

/-- INSERT … ON CONFLICT (key) DO NOTHING -/
def insertMetaOrIgnore (key value : String) : Db :=
  db.withMeta (db.metadata.insertOrIgnore ⟨key, value⟩)

/-! ## `identity` -/

/-- 次に入る identity の行。 -/
def newIdentity (endpointId name : String) (serviceAdmin : Bool) : Identity :=
  ⟨nextRowid (db.identity.rows.map (·.id)), endpointId, name, serviceAdmin⟩

/-- identity を足す。 -/
def insertIdentity (endpointId name : String) (serviceAdmin : Bool) : Option Db :=
  match h : db.identity.insert (db.newIdentity endpointId name serviceAdmin) with
  | none => none
  | some t =>
    some (db.withIdentities t fun i hi => ⟨i, (Table.mem_insert h).mpr (Or.inl hi), rfl⟩)

/-- DELETE FROM identity。`group_acl` の行は cascade で消える。 -/
def deleteIdentity (p : Identity → Bool) : Db :=
  { db with
    identity := db.identity.delete p
    groupAcl := db.groupAcl.cascade (·.identityId) db.identity (·.id) p
    aclIdentity := db.aclIdentity.cascade p
    aclGroup := db.aclGroup.mono (fun _ hr => (Table.mem_cascade.mp hr).1) fun g hg => ⟨g, hg, rfl⟩ }

/-- 名前が一致する行の `service_admin` を書き換える。 -/
def flagAdmin (name : String) (serviceAdmin : Bool) (i : Identity) : Identity :=
  if i.name = name then { i with serviceAdmin := serviceAdmin } else i

@[simp] theorem flagAdmin_id (name : String) (admin : Bool) (i : Identity) :
    (flagAdmin name admin i).id = i.id := by
  unfold flagAdmin; split <;> rfl

@[simp] theorem flagAdmin_endpointId (name : String) (admin : Bool) (i : Identity) :
    (flagAdmin name admin i).endpointId = i.endpointId := by
  unfold flagAdmin; split <;> rfl

@[simp] theorem flagAdmin_name (name : String) (admin : Bool) (i : Identity) :
    (flagAdmin name admin i).name = i.name := by
  unfold flagAdmin; split <;> rfl

theorem conflict_flagAdmin (name : String) (admin : Bool) (a b : Identity) :
    Row.Conflict (flagAdmin name admin a) (flagAdmin name admin b) → Row.Conflict a b := by
  simp only [Row.Conflict, flagAdmin_id, flagAdmin_endpointId, flagAdmin_name]
  exact id

/-- UPDATE identity SET service_admin -/
def setServiceAdmin (name : String) (serviceAdmin : Bool) : Db :=
  db.withIdentities
    (db.identity.update (flagAdmin name serviceAdmin) (conflict_flagAdmin name serviceAdmin))
    fun i hi => ⟨_, Table.mem_update.mpr ⟨i, hi, rfl⟩, flagAdmin_id _ _ i⟩

/-- endpoint id が一致する行の名前を替え、`service_admin` を落とす。 -/
def renameIdentity (endpointId name : String) (i : Identity) : Identity :=
  if i.endpointId = endpointId then { i with name := name, serviceAdmin := false } else i

@[simp] theorem renameIdentity_id (endpointId name : String) (i : Identity) :
    (renameIdentity endpointId name i).id = i.id := by
  unfold renameIdentity; split <;> rfl

@[simp] theorem renameIdentity_endpointId (endpointId name : String) (i : Identity) :
    (renameIdentity endpointId name i).endpointId = i.endpointId := by
  unfold renameIdentity; split <;> rfl

/-- INSERT … ON CONFLICT (endpoint_id) DO UPDATE SET name, service_admin = 0 -/
def upsertIdentity (endpointId name : String) : Option Db :=
  if ∃ i ∈ db.identity, i.endpointId = endpointId then
    match h : db.identity.modify (renameIdentity endpointId name) with
    | none => none
    | some t => some (db.withIdentities t fun i hi =>
        ⟨_, (Table.mem_modify h).mpr ⟨i, hi, rfl⟩, renameIdentity_id _ _ _⟩)
  else db.insertIdentity endpointId name false

/-! ## `secret_group` -/

/-- 足す group の行。 -/
def newGroup (name : String) : GroupRow := ⟨nextRowid (db.secretGroup.rows.map (·.id)), name⟩

/-- INSERT INTO secret_group。入った行の id も返す（`last_insert_rowid`）。 -/
def insertGroup (name : String) : Option (Nat × Db) :=
  match h : db.secretGroup.insert (db.newGroup name) with
  | none => none
  | some t => some
    ((db.newGroup name).id, db.withGroups t fun _ hg => (Table.mem_insert h).mpr (Or.inl hg))

/-- INSERT INTO secret_group … ON CONFLICT (name) DO NOTHING -/
def insertGroupOrIgnore (name : String) : Db :=
  db.withGroups (db.secretGroup.insertOrIgnore (db.newGroup name)) fun _ hg =>
    Table.mem_insertOrIgnore.mpr (Or.inl hg)

/-- その secret の group は消される。 -/
def secretOfDeleted (p : GroupRow → Bool) (s : SecretRow) : Bool :=
  db.secretGroup.rows.any fun g => p g && decide (g.id = s.groupId)

/-- DELETE FROM secret_group。group に属する行はすべて cascade で消える。 -/
def deleteGroup (p : GroupRow → Bool) : Db :=
  { db with
    secretGroup := db.secretGroup.delete p
    groupAcl := db.groupAcl.cascade (·.groupId) db.secretGroup (·.id) p
    groupDek := db.groupDek.cascade (·.groupId) db.secretGroup (·.id) p
    dekWrap := db.dekWrap.cascade (·.groupId) db.secretGroup (·.id) p
    secret := db.secret.delete (db.secretOfDeleted p)
    secretVersion := db.secretVersion.cascade (·.secretId) db.secret (·.id) (db.secretOfDeleted p)
    aclIdentity := db.aclIdentity.mono (fun _ hr => (Table.mem_cascade.mp hr).1)
      fun i hi => ⟨i, hi, rfl⟩
    aclGroup := db.aclGroup.cascade p
    dekGroup := db.dekGroup.cascade p
    wrapGroup := db.wrapGroup.cascade p
    secretInGroup := db.secretInGroup.cascade p
    versionOfSecret := db.versionOfSecret.cascade _ }

/-! ## `group_acl` -/

/-- INSERT INTO group_acl … ON CONFLICT DO UPDATE SET perms -/
def upsertAcl (identityId groupId : Nat) (perms : UInt8) : Option Db :=
  if h : (∃ i ∈ db.identity, i.id = identityId) ∧ ∃ g ∈ db.secretGroup, g.id = groupId then
    some (db.withAcl (db.groupAcl.upsert ⟨identityId, groupId, perms⟩)
      (db.aclIdentity.add (fun _ hr => (Table.mem_upsert.mp hr).imp_left And.left) h.1)
      (db.aclGroup.add (fun _ hr => (Table.mem_upsert.mp hr).imp_left And.left) h.2))
  else none

/-- INSERT INTO group_acl -/
def insertAcl (identityId groupId : Nat) (perms : UInt8) : Option Db :=
  if (∃ a ∈ db.groupAcl, a.identityId = identityId ∧ a.groupId = groupId) then none
  else db.upsertAcl identityId groupId perms

/-- ACL の行を消す。 -/
def deleteAcl (p : AclRow → Bool) : Db :=
  db.withAcl (db.groupAcl.delete p)
    (db.aclIdentity.mono (fun _ hr => (Table.mem_delete.mp hr).1) fun i hi => ⟨i, hi, rfl⟩)
    (db.aclGroup.mono (fun _ hr => (Table.mem_delete.mp hr).1) fun g hg => ⟨g, hg, rfl⟩)

/-! ## `group_dek` と `dek_wrap` -/

/-- INSERT INTO group_dek … ON CONFLICT DO NOTHING -/
def insertDekOrIgnore (groupId version : Nat) : Option Db :=
  if h : ∃ g ∈ db.secretGroup, g.id = groupId then
    some (db.withDeks (db.groupDek.insertOrIgnore ⟨groupId, version⟩)
      (db.dekGroup.add (fun _ hr => (Table.mem_insertOrIgnore.mp hr).imp_right And.left) h))
  else none

/-- INSERT INTO group_dek -/
def insertDek (groupId version : Nat) : Option Db :=
  if ∃ d ∈ db.groupDek, d.groupId = groupId ∧ d.version = version then none
  else db.insertDekOrIgnore groupId version

/-- INSERT INTO dek_wrap … ON CONFLICT DO UPDATE SET wrapped -/
def upsertWrap (groupId dekVersion : Nat) (recipient : String) (wrapped : Bytes) : Option Db :=
  if h : ∃ g ∈ db.secretGroup, g.id = groupId then
    some (db.withWraps (db.dekWrap.upsert ⟨groupId, dekVersion, recipient, wrapped⟩)
      (db.wrapGroup.add (fun _ hr => (Table.mem_upsert.mp hr).imp_left And.left) h))
  else none

/-- INSERT INTO dek_wrap -/
def insertWrap (groupId dekVersion : Nat) (recipient : String) (wrapped : Bytes) : Option Db :=
  if ∃ w ∈ db.dekWrap, w.groupId = groupId ∧ w.dekVersion = dekVersion ∧ w.recipient = recipient
  then none
  else db.upsertWrap groupId dekVersion recipient wrapped

/-- wrap を消す。 -/
def deleteWrap (p : WrapRow → Bool) : Db :=
  db.withWraps (db.dekWrap.delete p)
    (db.wrapGroup.mono (fun _ hr => (Table.mem_delete.mp hr).1) fun g hg => ⟨g, hg, rfl⟩)

/-! ## `secret` と `secret_version` -/

/-- 足す secret の行。 -/
def newSecret (groupId : Nat) (name : String) (currentVersion : Nat) : SecretRow :=
  ⟨nextRowid (db.secret.rows.map (·.id)), groupId, name, currentVersion⟩

/-- INSERT INTO secret。入った行の id も返す。 -/
def insertSecret (groupId : Nat) (name : String) (currentVersion : Nat) : Option (Nat × Db) :=
  if hg : ∃ g ∈ db.secretGroup, g.id = groupId then
    match h : db.secret.insert (db.newSecret groupId name currentVersion) with
    | none => none
    | some t => some
      ((db.newSecret groupId name currentVersion).id,
        db.withSecrets t db.secretVersion
          (db.secretInGroup.add (fun _ hr => (Table.mem_insert h).mp hr) hg)
          (db.versionOfSecret.mono (fun _ hr => hr) fun s hs =>
            ⟨s, (Table.mem_insert h).mpr (Or.inl hs), rfl⟩))
  else none

/-- DELETE FROM secret。`secret_version` の行は cascade で消える。 -/
def deleteSecret (p : SecretRow → Bool) : Db :=
  db.withSecrets (db.secret.delete p)
    (db.secretVersion.cascade (·.secretId) db.secret (·.id) p)
    (db.secretInGroup.mono (fun _ hr => (Table.mem_delete.mp hr).1) fun g hg => ⟨g, hg, rfl⟩)
    (db.versionOfSecret.cascade p)

/-- id が一致する行の `current_version` を書き換える。 -/
def advance (id version : Nat) (s : SecretRow) : SecretRow :=
  if s.id = id then { s with currentVersion := version } else s

@[simp] theorem advance_id (id version : Nat) (s : SecretRow) : (advance id version s).id = s.id := by
  unfold advance; split <;> rfl

@[simp] theorem advance_groupId (id version : Nat) (s : SecretRow) :
    (advance id version s).groupId = s.groupId := by
  unfold advance; split <;> rfl

@[simp] theorem advance_name (id version : Nat) (s : SecretRow) :
    (advance id version s).name = s.name := by
  unfold advance; split <;> rfl

theorem advance_self (version : Nat) (s : SecretRow) :
    advance s.id version s = { s with currentVersion := version } := if_pos rfl

theorem advance_of_ne {id : Nat} (version : Nat) {s : SecretRow} (h : s.id ≠ id) :
    advance id version s = s := if_neg h

theorem conflict_advance (id version : Nat) (a b : SecretRow) :
    Row.Conflict (advance id version a) (advance id version b) → Row.Conflict a b := by
  simp only [Row.Conflict, advance_id, advance_groupId, advance_name]
  exact fun h => h

/-- UPDATE secret SET current_version -/
def setCurrentVersion (id version : Nat) : Db :=
  db.withSecrets (db.secret.update (advance id version) (conflict_advance id version))
    db.secretVersion
    (by
      intro s hs
      obtain ⟨s₀, hs₀, rfl⟩ := Table.mem_update.mp hs
      obtain ⟨g, hg, hgs⟩ := db.secretInGroup s₀ hs₀
      exact ⟨g, hg, hgs.trans (advance_groupId id version s₀).symm⟩)
    (db.versionOfSecret.mono (fun _ hr => hr) fun s hs =>
      ⟨_, Table.mem_update.mpr ⟨s, hs, rfl⟩, advance_id _ _ s⟩)

/-- INSERT INTO secret_version -/
def insertVersion (v : VersionRow) : Option Db :=
  if hs : ∃ s ∈ db.secret, s.id = v.secretId then
    match h : db.secretVersion.insert v with
    | none => none
    | some t => some (db.withSecrets db.secret t db.secretInGroup
        (db.versionOfSecret.add (fun _ hr => (Table.mem_insert h).mp hr) hs))
  else none

end Db

end SecretBunker
