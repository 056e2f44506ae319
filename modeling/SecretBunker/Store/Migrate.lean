import SecretBunker.Store.Mutate

/-!
# 古い schema の database を開く

`src/store.rs` の `migrate` と `Store::open`。v1 の `group_dek` は二つの wrap を列に持ち、
`dek_wrap` の表はまだ無い。開くと、列は `operational` と `backup` に宛てた行になる。
-/

namespace SecretBunker

open Relational

/-- v1 の `group_dek` の行。 -/
structure LegacyDekRow where
  groupId : Nat
  version : Nat
  wrappedOperational : Bytes
  wrappedBackup : Bytes
  deriving DecidableEq

instance : Row LegacyDekRow where
  Conflict a b := a.groupId = b.groupId ∧ a.version = b.version
  decConflict _ _ := inferInstanceAs (Decidable (_ ∧ _))
  refl _ := ⟨rfl, rfl⟩
  symm _ _ h := ⟨h.1.symm, h.2.symm⟩

/-- v1 の database。 -/
structure LegacyDb where
  metadata : Table MetaRow
  identity : Table Identity
  secretGroup : Table GroupRow
  groupAcl : Table AclRow
  groupDek : Table LegacyDekRow
  secret : Table SecretRow
  secretVersion : Table VersionRow
  auditLog : List AuditRow
  aclIdentity : groupAcl.References (·.identityId) identity (·.id)
  aclGroup : groupAcl.References (·.groupId) secretGroup (·.id)
  dekGroup : groupDek.References (·.groupId) secretGroup (·.id)
  secretInGroup : secret.References (·.groupId) secretGroup (·.id)
  versionOfSecret : secretVersion.References (·.secretId) secret (·.id)

namespace LegacyDb

/-- version の登録だけを残した表。 -/
def dekRows (t : Table LegacyDekRow) : Table DekRow where
  rows := t.rows.map fun d => ⟨d.groupId, d.version⟩
  unique := by
    rw [List.pairwise_map]
    exact t.unique.imp fun h hc => h hc

/-- 列から作った wrap の行。 -/
def wrapRows (t : Table LegacyDekRow) : Table WrapRow where
  rows := t.rows.map (fun d => ⟨d.groupId, d.version, recipientOperational, d.wrappedOperational⟩)
    ++ t.rows.map fun d => ⟨d.groupId, d.version, recipientBackup, d.wrappedBackup⟩
  unique := by
    rw [List.pairwise_append, List.pairwise_map, List.pairwise_map]
    refine ⟨t.unique.imp fun h hc => h ⟨hc.1, hc.2.1⟩, t.unique.imp fun h hc => h ⟨hc.1, hc.2.1⟩, ?_⟩
    intro a ha b hb hc
    obtain ⟨_, -, rfl⟩ := List.mem_map.mp ha
    obtain ⟨_, -, rfl⟩ := List.mem_map.mp hb
    exact (show recipientOperational ≠ recipientBackup by decide) hc.2.2

theorem mem_wrapRows {t : Table LegacyDekRow} {w : WrapRow} :
    w ∈ wrapRows t ↔ ∃ d ∈ t, w = ⟨d.groupId, d.version, recipientOperational, d.wrappedOperational⟩ ∨
      w = ⟨d.groupId, d.version, recipientBackup, d.wrappedBackup⟩ := by
  show w ∈ (wrapRows t).rows ↔ _
  rw [wrapRows, List.mem_append, List.mem_map, List.mem_map]
  constructor
  · rintro (⟨d, hd, rfl⟩ | ⟨d, hd, rfl⟩)
    · exact ⟨d, hd, Or.inl rfl⟩
    · exact ⟨d, hd, Or.inr rfl⟩
  · rintro ⟨d, hd, rfl | rfl⟩
    · exact Or.inl ⟨d, hd, rfl⟩
    · exact Or.inr ⟨d, hd, rfl⟩

/-- `migrate` の、schema を替える transaction。 -/
def migrate (l : LegacyDb) : Db where
  metadata := l.metadata.upsert ⟨"schema_version", "2"⟩
  identity := l.identity
  secretGroup := l.secretGroup
  groupAcl := l.groupAcl
  groupDek := dekRows l.groupDek
  dekWrap := wrapRows l.groupDek
  secret := l.secret
  secretVersion := l.secretVersion
  auditLog := l.auditLog
  aclIdentity := l.aclIdentity
  aclGroup := l.aclGroup
  dekGroup := by
    intro d hd
    obtain ⟨x, hx, rfl⟩ := List.mem_map.mp hd
    exact l.dekGroup x hx
  wrapGroup := by
    intro w hw
    obtain ⟨d, hd, rfl | rfl⟩ := mem_wrapRows.mp hw
    · exact l.dekGroup d hd
    · exact l.dekGroup d hd
  secretInGroup := l.secretInGroup
  versionOfSecret := l.versionOfSecret

end LegacyDb

/-- disk の上の database。まだ無い file は、表の空な database と同じである。 -/
inductive DbFile where
  | legacy (db : LegacyDb)
  | current (db : Db)

/-- どの schema でも `meta` は同じ形である。 -/
def DbFile.metadata : DbFile → Table MetaRow
  | .legacy db => db.metadata
  | .current db => db.metadata

namespace Store

/-- database を開く。v1 なら先に schema を替える。 -/
def openFile : DbFile → Db
  | .legacy db => openDb db.migrate
  | .current db => openDb db

end Store

end SecretBunker
