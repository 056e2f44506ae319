import Mathlib.Data.Prod.Lex
import SecretBunker.Store.Db

/-!
# `Store` の読み取り

`src/store.rs` の SELECT だけの関数。列を返すものは source の ORDER BY のとおりに並べる。
-/

namespace SecretBunker

open Relational

/-- `(name, current_version, dek_version, nonce)` -/
abbrev SecretEntryRow := String × Nat × Nat × Bytes

/-- `(version, dek_version, nonce, ciphertext, created_at, created_by)` -/
@[ext] structure SecretDataRow where
  version : Nat
  dekVersion : Nat
  nonce : Bytes
  ciphertext : Bytes
  createdAt : Int
  createdBy : String
  deriving DecidableEq

/-- version の行の、sync が運ぶ列。 -/
def VersionRow.data (v : VersionRow) : SecretDataRow :=
  ⟨v.version, v.dekVersion, v.nonce, v.ciphertext, v.createdAt, v.createdBy⟩

/-- secret のいまの版。 -/
structure SecretVersion where
  version : Nat
  dekVersion : Nat
  nonce : Bytes
  ciphertext : Bytes
  deriving DecidableEq

namespace Store

variable (db : Db)

/-! ## meta と identity -/

/-- `meta` の値。 -/
def metaGet (key : String) : Option String :=
  (db.metadata.find? fun m => m.key == key).map (·.value)

/-- `init` が済んでいる。 -/
def isInitialized : Bool := (metaGet db "operational_pubkey").isSome

/-- endpoint の identity。 -/
def identityByEndpoint (endpointId : String) : Option Identity :=
  db.identity.find? fun i => i.endpointId == endpointId

/-- 名前の identity。 -/
def identityByName (name : String) : Option Identity :=
  db.identity.find? fun i => i.name == name

/-- 名前の順の identity。 -/
def listIdentities : List Identity := sortOn (·.name) db.identity.rows

/-! ## group と ACL -/

/-- 名前から group の id を引く。 -/
def groupId (name : String) : Option Nat :=
  (db.secretGroup.find? fun g => g.name == name).map (·.id)

/-- id から group の名前を引く。 -/
def groupName (groupId : Nat) : Option String :=
  (db.secretGroup.find? fun g => g.id == groupId).map (·.name)

/-- `(identity, group)` の ACL の行。 -/
def aclRow (identityId groupId : Nat) : Option AclRow :=
  db.groupAcl.find? fun a => a.identityId == identityId && a.groupId == groupId

/-- 許可の bitmask。行が無ければ 0。 -/
def perms (identityId groupId : Nat) : UInt8 :=
  ((aclRow db identityId groupId).map (·.perms)).getD 0

/-- group に ADMIN を持つ行の数。 -/
def adminCount (groupId : Nat) : Nat :=
  (db.groupAcl.rows.filter fun a => a.groupId == groupId && hasBit a.perms permAdmin).length

/-- identity の ACL にある group と許可。 -/
def groupsForIdentity (identityId : Nat) : List (String × UInt8) :=
  sortOn Prod.fst (db.secretGroup.rows.filterMap fun g =>
    (aclRow db identityId g.id).map fun a => (g.name, a.perms))

/-- すべての group と、identity の許可。 -/
def allGroupsWithPerms (identityId : Nat) : List (String × UInt8) :=
  sortOn Prod.fst (db.secretGroup.rows.map fun g => (g.name, perms db identityId g.id))

/-- group の ACL を `(name, perms)` の列で返す。 -/
def groupAclEntries (groupId : Nat) : List (String × UInt8) :=
  sortOn Prod.fst (db.identity.rows.filterMap fun i =>
    (aclRow db i.id groupId).map fun a => (i.name, a.perms))

/-- READ を明示的に持つ identity。DEK の version ごとに wrap を持つのはこの集まりである。 -/
def readGrantedIdentities (groupId : Nat) : List Identity :=
  sortOn (·.name) (db.identity.rows.filter fun i => hasBit (perms db i.id groupId) permRead)

/-- identity が READ を持つ group。 -/
def groupsWithRead (identityId : Nat) : List Nat :=
  sortOn id ((db.groupAcl.rows.filter fun a =>
    a.identityId == identityId && hasBit a.perms permRead).map (·.groupId))

/-- 明示的な READ を持つ group。同期の範囲はこれで尽きる。 -/
def readScope (identityId : Nat) : List (Nat × String) :=
  sortOn Prod.snd ((db.secretGroup.rows.filter fun g =>
    hasBit (perms db identityId g.id) permRead).map fun g => (g.id, g.name))

/-- group の ACL を `(name, endpoint_id, perms)` の列で返す。 -/
def aclEntriesFull (groupId : Nat) : List (String × String × UInt8) :=
  sortOn Prod.fst (db.identity.rows.filterMap fun i =>
    (aclRow db i.id groupId).map fun a => (i.name, i.endpointId, a.perms))

/-! ## DEK -/

/-- group に登録された DEK の version（順不同）。 -/
def registeredVersions (groupId : Nat) : List Nat :=
  (db.groupDek.rows.filter fun d => d.groupId == groupId).map (·.version)

/-- `SELECT MAX(version)`。一つも無ければ NULL で、読み取りは失敗する。 -/
def currentDekVersion (groupId : Nat) : Option Nat := (registeredVersions db groupId).max?

/-- 登録された DEK の version。 -/
def dekVersions (groupId : Nat) : List Nat := sortOn id (registeredVersions db groupId)

/-- recipient 宛ての wrap の行。 -/
def wrapRow (groupId dekVersion : Nat) (recipient : String) : Option WrapRow :=
  db.dekWrap.find? fun w =>
    w.groupId == groupId && w.dekVersion == dekVersion && w.recipient == recipient

/-- recipient 宛ての wrap。 -/
def dekWrap (groupId dekVersion : Nat) (recipient : String) : Option Bytes :=
  (wrapRow db groupId dekVersion recipient).map (·.wrapped)

/-- group の、recipient 宛ての wrap。 -/
def wrapsForRecipient (groupId : Nat) (recipient : String) : List (Nat × Bytes) :=
  sortOn Prod.fst ((db.dekWrap.rows.filter fun w =>
    w.groupId == groupId && w.recipient == recipient).map fun w => (w.dekVersion, w.wrapped))

/-- すべての group の、recipient 宛ての wrap。 -/
def allWrapsForRecipient (recipient : String) : List (Nat × Nat × Bytes) :=
  sortOn (fun x => toLex (x.1, x.2.1)) ((db.dekWrap.rows.filter fun w =>
    w.recipient == recipient).map fun w => (w.groupId, w.dekVersion, w.wrapped))

/-! ## secret -/

/-- secret の行。 -/
def secretRow (groupId : Nat) (name : String) : Option SecretRow :=
  db.secret.find? fun s => s.groupId == groupId && s.name == name

/-- secret の現在の version の行。 -/
def currentRow (s : SecretRow) : Option VersionRow :=
  db.secretVersion.find? fun v => v.secretId == s.id && v.version == s.currentVersion

/-- secret の見出し。 -/
def secretEntries (groupId : Nat) : List SecretEntryRow :=
  sortOn Prod.fst ((db.secret.rows.filter fun s => s.groupId == groupId).filterMap fun s =>
    (currentRow db s).map fun v => (s.name, s.currentVersion, v.dekVersion, v.nonce))

/-- secret のいまの中身。 -/
def secretDataCurrent (groupId : Nat) (name : String) : Option SecretDataRow :=
  (secretRow db groupId name).bind fun s => (currentRow db s).map (·.data)

/-- secret のいまの版。 -/
def secretCurrent (groupId : Nat) (name : String) : Option SecretVersion :=
  (secretRow db groupId name).bind fun s => (currentRow db s).map fun v =>
    ⟨v.version, v.dekVersion, v.nonce, v.ciphertext⟩

/-- secret のいまの version。 -/
def secretVersion (groupId : Nat) (name : String) : Option Nat :=
  (secretRow db groupId name).map (·.currentVersion)

/-- secret の名前と version。 -/
def listSecrets (groupId : Nat) : List (String × Nat) :=
  sortOn Prod.fst ((db.secret.rows.filter fun s => s.groupId == groupId).map fun s =>
    (s.name, s.currentVersion))

/-- mirror にある group の名前。 -/
def replicaGroupNames : List String := sortOn id (db.secretGroup.rows.map (·.name))

/-! ## 一意な列で引いた答え -/

variable {db} {key value name : String} {gid iid v : Nat}

theorem metaGet_eq_some : metaGet db key = some value ↔ ⟨key, value⟩ ∈ db.metadata := by
  unfold metaGet
  rw [Option.map_eq_some_iff]
  constructor
  · rintro ⟨m, hm, rfl⟩
    obtain ⟨hm, hk⟩ := Table.mem_of_find? hm
    rw [← eq_of_beq hk]
    exact hm
  · intro h
    refine ⟨_, (Table.find?_eq_some ?_).mpr ⟨h, beq_self_eq_true key⟩, rfl⟩
    intro a b ha hb
    exact (eq_of_beq ha).trans (eq_of_beq hb).symm

theorem metaGet_upsertMeta {k : String} :
    metaGet (db.upsertMeta key value) k = if k = key then some value else metaGet db k := by
  refine Option.ext fun v => ?_
  rw [metaGet_eq_some]
  show _ ∈ db.metadata.upsert _ ↔ _
  rw [Table.mem_upsert, MetaRow.mk.injEq]
  by_cases hk : k = key
  · subst hk
    rw [if_pos rfl, Option.some.injEq]
    constructor
    · rintro (⟨-, hc⟩ | ⟨-, rfl⟩)
      · exact absurd rfl hc
      · rfl
    · rintro rfl
      exact Or.inr ⟨rfl, rfl⟩
  · rw [if_neg hk, metaGet_eq_some]
    constructor
    · rintro (⟨hm, -⟩ | ⟨he, -⟩)
      · exact hm
      · exact absurd he hk
    · exact fun hm => Or.inl ⟨hm, hk⟩

theorem metaGet_insertMetaOrIgnore {k : String} (h : k ≠ key) :
    metaGet (db.insertMetaOrIgnore key value) k = metaGet db k := by
  refine Option.ext fun v => ?_
  rw [metaGet_eq_some, metaGet_eq_some]
  show _ ∈ db.metadata.insertOrIgnore _ ↔ _
  rw [Table.mem_insertOrIgnore]
  exact or_iff_left fun hc => h (MetaRow.mk.inj hc.1).1

theorem metaGet_insertMetaOrIgnore_self :
    metaGet (db.insertMetaOrIgnore key value) key = some ((metaGet db key).getD value) := by
  rw [metaGet_eq_some]
  show _ ∈ db.metadata.insertOrIgnore _
  rw [Table.mem_insertOrIgnore]
  cases h : metaGet db key with
  | some v => exact Or.inl (metaGet_eq_some.mp h)
  | none =>
    refine Or.inr ⟨rfl, ?_⟩
    rintro ⟨k, v⟩ hm hc
    obtain rfl : k = key := hc
    exact Option.some_ne_none v ((metaGet_eq_some.mpr hm).symm.trans h)

theorem identityByEndpoint_eq_some {e : String} {i : Identity} :
    identityByEndpoint db e = some i ↔ i ∈ db.identity ∧ i.endpointId = e := by
  unfold identityByEndpoint
  rw [Table.find?_eq_some, beq_iff_eq]
  intro a b ha hb
  exact Or.inr (Or.inl ((eq_of_beq ha).trans (eq_of_beq hb).symm))

theorem identityByName_eq_some {i : Identity} :
    identityByName db name = some i ↔ i ∈ db.identity ∧ i.name = name := by
  unfold identityByName
  rw [Table.find?_eq_some, beq_iff_eq]
  intro a b ha hb
  exact Or.inr (Or.inr ((eq_of_beq ha).trans (eq_of_beq hb).symm))

theorem groupId_eq_some : groupId db name = some gid ↔ ⟨gid, name⟩ ∈ db.secretGroup := by
  unfold groupId
  rw [Option.map_eq_some_iff]
  constructor
  · rintro ⟨g, hg, rfl⟩
    obtain ⟨hg, hn⟩ := Table.mem_of_find? hg
    rw [← eq_of_beq hn]
    exact hg
  · intro h
    refine ⟨_, (Table.find?_eq_some ?_).mpr ⟨h, beq_self_eq_true name⟩, rfl⟩
    intro a b ha hb
    exact Or.inr ((eq_of_beq ha).trans (eq_of_beq hb).symm)

theorem groupId_inj {a b : String} (ha : groupId db a = some gid) (hb : groupId db b = some gid) :
    a = b :=
  (GroupRow.mk.inj (Table.eq_of_conflict (groupId_eq_some.mp ha) (groupId_eq_some.mp hb)
    (Or.inl rfl))).2

theorem groupId_eq_none : groupId db name = none ↔ ∀ g ∈ db.secretGroup, g.name ≠ name := by
  unfold groupId
  rw [Option.map_eq_none_iff, Table.find?_eq_none]
  simp

theorem aclRow_eq_some {a : AclRow} :
    aclRow db iid gid = some a ↔ a ∈ db.groupAcl ∧ a.identityId = iid ∧ a.groupId = gid := by
  unfold aclRow
  rw [Table.find?_eq_some]
  · simp
  · intro a b ha hb
    simp only [Bool.and_eq_true, beq_iff_eq] at ha hb
    exact ⟨ha.1.trans hb.1.symm, ha.2.trans hb.2.symm⟩

theorem aclRow_eq_none :
    aclRow db iid gid = none ↔ ∀ a ∈ db.groupAcl, a.identityId = iid → a.groupId ≠ gid := by
  unfold aclRow
  rw [Table.find?_eq_none]
  simp

theorem dekWrap_eq_some {r : String} {b : Bytes} :
    dekWrap db gid v r = some b ↔ ⟨gid, v, r, b⟩ ∈ db.dekWrap := by
  unfold dekWrap wrapRow
  rw [Option.map_eq_some_iff]
  constructor
  · rintro ⟨w, hf, rfl⟩
    obtain ⟨hw, hp⟩ := Table.mem_of_find? hf
    simp only [Bool.and_eq_true, beq_iff_eq] at hp
    obtain ⟨⟨rfl, rfl⟩, rfl⟩ := hp
    exact hw
  · intro h
    refine ⟨_, (Table.find?_eq_some ?_).mpr ⟨h, by simp⟩, rfl⟩
    intro a b ha hb
    simp only [Bool.and_eq_true, beq_iff_eq] at ha hb
    exact ⟨ha.1.1.trans hb.1.1.symm, ha.1.2.trans hb.1.2.symm, ha.2.trans hb.2.symm⟩

theorem secretRow_eq_some {s : SecretRow} :
    secretRow db gid name = some s ↔ s ∈ db.secret ∧ s.groupId = gid ∧ s.name = name := by
  unfold secretRow
  rw [Table.find?_eq_some]
  · simp
  · intro a b ha hb
    simp only [Bool.and_eq_true, beq_iff_eq] at ha hb
    exact Or.inr ⟨ha.1.trans hb.1.symm, ha.2.trans hb.2.symm⟩

theorem secretRow_eq_none :
    secretRow db gid name = none ↔ ∀ s ∈ db.secret, s.groupId = gid → s.name ≠ name := by
  unfold secretRow
  rw [Table.find?_eq_none]
  simp

theorem currentRow_eq_some {s : SecretRow} {v : VersionRow} :
    currentRow db s = some v ↔
      v ∈ db.secretVersion ∧ v.secretId = s.id ∧ v.version = s.currentVersion := by
  unfold currentRow
  rw [Table.find?_eq_some]
  · simp
  · intro a b ha hb
    simp only [Bool.and_eq_true, beq_iff_eq] at ha hb
    exact ⟨ha.1.trans hb.1.symm, ha.2.trans hb.2.symm⟩

/-! ## 列の中身 -/

theorem identityNames_nodup (db : Db) : (db.identity.rows.map (·.name)).Nodup :=
  Table.map_nodup (fun _ _ h => Or.inr (Or.inr h)) db.identity

theorem groupNames_nodup (db : Db) : (db.secretGroup.rows.map (·.name)).Nodup :=
  Table.map_nodup (fun _ _ h => Or.inr h) db.secretGroup

theorem aclPerms_eq_some {p : UInt8} :
    (aclRow db iid gid).map (·.perms) = some p ↔ ⟨iid, gid, p⟩ ∈ db.groupAcl := by
  rw [Option.map_eq_some_iff]
  constructor
  · rintro ⟨a, hrow, rfl⟩
    obtain ⟨ha, rfl, rfl⟩ := aclRow_eq_some.mp hrow
    exact ha
  · intro h
    exact ⟨_, aclRow_eq_some.mpr ⟨h, rfl, rfl⟩, rfl⟩

/-- 名前の一覧は、ACL の行と一致する。 -/
theorem mem_groupsForIdentity {e : String × UInt8} :
    e ∈ groupsForIdentity db iid ↔
      ∃ gid, groupId db e.1 = some gid ∧ ⟨iid, gid, e.2⟩ ∈ db.groupAcl := by
  unfold groupsForIdentity
  simp only [mem_sortOn, List.mem_filterMap, Option.map_eq_some_iff, aclRow_eq_some,
    groupId_eq_some]
  constructor
  · rintro ⟨g, hg, a, ⟨ha, rfl, hid⟩, rfl⟩
    exact ⟨g.id, hg, by rw [← hid]; exact ha⟩
  · rintro ⟨gid, hg, ha⟩
    exact ⟨_, hg, _, ⟨ha, rfl, rfl⟩, rfl⟩

theorem groupsForIdentity_nodup (db : Db) (iid : Nat) :
    ((groupsForIdentity db iid).map Prod.fst).Nodup := by
  refine sortOn_map_nodup (nodup_filterMap_key ?_ (groupNames_nodup db))
  intro g e he
  obtain ⟨a, -, rfl⟩ := Option.map_eq_some_iff.mp he
  rfl

theorem mem_aclEntriesFull {e : String × String × UInt8} :
    e ∈ aclEntriesFull db gid ↔
      ∃ i ∈ db.identity, i.name = e.1 ∧ i.endpointId = e.2.1 ∧ ⟨i.id, gid, e.2.2⟩ ∈ db.groupAcl := by
  unfold aclEntriesFull
  simp only [mem_sortOn, List.mem_filterMap, Option.map_eq_some_iff, aclRow_eq_some]
  constructor
  · rintro ⟨i, hi, a, ⟨ha, hid, rfl⟩, rfl⟩
    exact ⟨i, hi, rfl, rfl, by rw [← hid]; exact ha⟩
  · rintro ⟨i, hi, hn, he, ha⟩
    exact ⟨i, hi, _, ⟨ha, rfl, rfl⟩, Prod.ext hn (Prod.ext he rfl)⟩

theorem mem_groupAclEntries {e : String × UInt8} :
    e ∈ groupAclEntries db gid ↔
      ∃ i ∈ db.identity, i.name = e.1 ∧ ⟨i.id, gid, e.2⟩ ∈ db.groupAcl := by
  unfold groupAclEntries
  simp only [mem_sortOn, List.mem_filterMap, Option.map_eq_some_iff, aclRow_eq_some]
  constructor
  · rintro ⟨i, hi, a, ⟨ha, hid, rfl⟩, rfl⟩
    exact ⟨i, hi, rfl, by rw [← hid]; exact ha⟩
  · rintro ⟨i, hi, hn, ha⟩
    exact ⟨i, hi, _, ⟨ha, rfl, rfl⟩, Prod.ext hn rfl⟩

theorem groupAclEntries_nodup (db : Db) (gid : Nat) :
    ((groupAclEntries db gid).map Prod.fst).Nodup := by
  refine sortOn_map_nodup (nodup_filterMap_key ?_ (identityNames_nodup db))
  intro i e he
  obtain ⟨a, -, rfl⟩ := Option.map_eq_some_iff.mp he
  rfl

theorem aclEntriesFull_nodup (db : Db) (gid : Nat) :
    ((aclEntriesFull db gid).map Prod.fst).Nodup := by
  refine sortOn_map_nodup (nodup_filterMap_key ?_ (identityNames_nodup db))
  intro i e he
  obtain ⟨a, -, rfl⟩ := Option.map_eq_some_iff.mp he
  rfl

theorem registeredVersions_nodup (db : Db) (gid : Nat) : (registeredVersions db gid).Nodup := by
  refine Table.map_filter_nodup ?_ db.groupDek
  intro a b ha hb he
  exact ⟨(eq_of_beq ha).trans (eq_of_beq hb).symm, he⟩

theorem dekVersions_nodup (db : Db) (gid : Nat) : (dekVersions db gid).Nodup :=
  (perm_sortOn id _).nodup_iff.mpr (registeredVersions_nodup db gid)

theorem groupsWithRead_nodup (db : Db) (iid : Nat) : (groupsWithRead db iid).Nodup := by
  refine (perm_sortOn id _).nodup_iff.mpr (Table.map_filter_nodup ?_ db.groupAcl)
  intro a b ha hb he
  simp only [Bool.and_eq_true, beq_iff_eq] at ha hb
  exact ⟨ha.1.trans hb.1.symm, he⟩

theorem mem_registeredVersions : v ∈ registeredVersions db gid ↔ ⟨gid, v⟩ ∈ db.groupDek := by
  unfold registeredVersions
  rw [List.mem_map]
  constructor
  · rintro ⟨d, hd, rfl⟩
    obtain ⟨hd, hg⟩ := List.mem_filter.mp hd
    rw [← eq_of_beq hg]
    exact hd
  · intro h
    exact ⟨_, List.mem_filter.mpr ⟨h, beq_self_eq_true gid⟩, rfl⟩

theorem mem_dekVersions : v ∈ dekVersions db gid ↔ ⟨gid, v⟩ ∈ db.groupDek := by
  unfold dekVersions
  rw [mem_sortOn, mem_registeredVersions]

/-- 今の DEK は、最も新しい version である。 -/
theorem currentDekVersion_eq_some :
    currentDekVersion db gid = some v ↔
      ⟨gid, v⟩ ∈ db.groupDek ∧ ∀ u, ⟨gid, u⟩ ∈ db.groupDek → u ≤ v := by
  unfold currentDekVersion
  rw [List.max?_eq_some_iff]
  simp only [mem_registeredVersions]

theorem currentDekVersion_eq_none :
    currentDekVersion db gid = none ↔ ∀ u, ⟨gid, u⟩ ∉ db.groupDek := by
  unfold currentDekVersion
  rw [List.max?_eq_none_iff, List.eq_nil_iff_forall_not_mem]
  simp only [mem_registeredVersions]

/-- READ のある identity だけが並ぶ。 -/
theorem mem_readGrantedIdentities {i : Identity} :
    i ∈ readGrantedIdentities db gid ↔
      i ∈ db.identity ∧ hasBit (perms db i.id gid) permRead = true := by
  unfold readGrantedIdentities
  rw [mem_sortOn, List.mem_filter]
  rfl

theorem mem_allWrapsForRecipient {r : String} {b : Bytes} :
    (gid, v, b) ∈ allWrapsForRecipient db r ↔ ⟨gid, v, r, b⟩ ∈ db.dekWrap := by
  unfold allWrapsForRecipient
  rw [mem_sortOn, List.mem_map]
  constructor
  · rintro ⟨w, hw, he⟩
    obtain ⟨hw, hr⟩ := List.mem_filter.mp hw
    cases he
    rw [← eq_of_beq hr]
    exact hw
  · intro h
    exact ⟨_, List.mem_filter.mpr ⟨h, beq_self_eq_true r⟩, rfl⟩

end Store

end SecretBunker
