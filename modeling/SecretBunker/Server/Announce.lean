import SecretBunker.Server.Secrets
import SecretBunker.Server.Sync
import SecretBunker.Store.Mirror

/-!
# 変わった group は必ず知らされる

`touched_groups` は要求だけを見て知らせる group を決める。実際の効果は cascade や複数の group の
DEK の更新を通るので、知らせなかった group に何も起きていないことを、効果の側から示す。
-/

namespace SecretBunker

open Relational Store

variable {prim : Primitives} {db db' : Db} {inner : Inner} {amb : Ambient} {ident : Identity}

/-- group の ACL、DEK、wrap、secret のどれも前と同じに見える。 -/
structure Untouched (db db' : Db) (gid : Nat) : Prop where
  acl : ∀ e, e ∈ aclEntriesFull db' gid ↔ e ∈ aclEntriesFull db gid
  deks : ∀ v, ⟨gid, v⟩ ∈ db'.groupDek ↔ ⟨gid, v⟩ ∈ db.groupDek
  wraps : ∀ w, w.groupId = gid → (w ∈ db'.dekWrap ↔ w ∈ db.dekWrap)
  secrets : ∀ n, slot db' gid n = slot db gid n

namespace Untouched

variable {gid : Nat}

theorem refl (db : Db) (gid : Nat) : Untouched db db gid :=
  ⟨fun _ => Iff.rfl, fun _ => Iff.rfl, fun _ _ => Iff.rfl, fun _ => rfl⟩

theorem audit (h : Untouched db db' gid) (log : List AuditRow) :
    Untouched db (db'.withAudit log) gid := ⟨h.acl, h.deks, h.wraps, h.secrets⟩

theorem auditRotations (h : Untouched db db' gid) (now : Int) (e : String) (groups : List String) :
    Untouched db (Bunker.auditRotations prim db' now e groups) gid := by
  obtain ⟨log, hlog⟩ := @auditRotations_only prim db' now e groups
  rw [hlog]
  exact h.audit log

/-- identity の表が同じなら、ACL は行だけを比べればよい。 -/
theorem of_rows (hi : db'.identity = db.identity)
    (ha : ∀ a, a.groupId = gid → (a ∈ db'.groupAcl ↔ a ∈ db.groupAcl))
    (hd : ∀ v, ⟨gid, v⟩ ∈ db'.groupDek ↔ ⟨gid, v⟩ ∈ db.groupDek)
    (hw : ∀ w, w.groupId = gid → (w ∈ db'.dekWrap ↔ w ∈ db.dekWrap))
    (hs : ∀ n, slot db' gid n = slot db gid n) : Untouched db db' gid := by
  refine ⟨fun e => ?_, hd, hw, hs⟩
  rw [mem_aclEntriesFull, mem_aclEntriesFull, hi]
  simp only [ha ⟨_, gid, _⟩ rfl]

end Untouched

theorem slot_of_same (h : SameSecrets db db') (gid : Nat) (n : String) :
    slot db' gid n = slot db gid n := slot_congr h.1 h.2 gid n

/-- 一つの secret の書き込みは、ほかの group の secret を動かさない。 -/
theorem slot_of_set (hc : Complete db) {gid g : Nat} {name : String} {row : Option SecretDataRow}
    (h : SecretSet db db' gid name row) (hne : g ≠ gid) (n : String) :
    slot db' g n = slot db g n := by
  have hrow : secretDataCurrent db' g n = secretDataCurrent db g n := by
    rw [h.current, if_neg fun hc => hne hc.1]
  unfold slot
  rw [h.complete.secretVersion_eq, hc.secretVersion_eq, hrow]

/-! ## 書き込みごとの、触れない group -/

section Writes

variable {gid g iid : Nat} {p : UInt8} {wraps : List (String × Bytes)}

theorem acl_of_aclSet (h : AclSet db db' iid gid p) (hne : g ≠ gid) :
    ∀ a, a.groupId = g → (a ∈ db'.groupAcl ↔ a ∈ db.groupAcl) := by
  obtain ⟨t, hi, hg, rfl, hmem⟩ := h
  rintro a rfl
  show a ∈ t ↔ _
  rw [hmem]
  constructor
  · rintro (⟨ha, -⟩ | ⟨-, rfl⟩)
    · exact ha
    · exact absurd rfl hne
  · exact fun ha => Or.inl ⟨ha, fun hc => hne hc.2⟩

theorem deks_of_ne {v : Nat} {td : Table DekRow}
    (h : ∀ d, d ∈ td ↔ d ∈ db.groupDek ∨ d = ⟨gid, v⟩) (hne : g ≠ gid) (u : Nat) :
    ⟨g, u⟩ ∈ td ↔ ⟨g, u⟩ ∈ db.groupDek := by
  rw [h, DekRow.mk.injEq]
  exact or_iff_left fun hc => hne hc.1

/-- 消える wrap も増える wrap も `gid` のものなら、ほかの group の wrap は同じである。 -/
theorem wraps_of_ne {tw : Table WrapRow} {gone new : WrapRow → Prop}
    (h : ∀ w, w ∈ tw ↔ (w ∈ db.dekWrap ∧ ¬ gone w) ∨ new w)
    (hgone : ∀ w, gone w → w.groupId = gid) (hnew : ∀ w, new w → w.groupId = gid) (hne : g ≠ gid)
    (w : WrapRow) (hw : w.groupId = g) : w ∈ tw ↔ w ∈ db.dekWrap := by
  rw [h]
  constructor
  · rintro (⟨hm, -⟩ | hn)
    · exact hm
    · exact absurd (hw.symm.trans (hnew w hn)) hne
  · exact fun hm => Or.inl ⟨hm, fun hg => hne (hw.symm.trans (hgone w hg))⟩

theorem groupId_of_wrapped {v : Nat} {w : WrapRow} (h : ∃ q ∈ wraps, w = ⟨gid, v, q.1, q.2⟩) :
    w.groupId = gid := by
  obtain ⟨q, -, rfl⟩ := h
  rfl

theorem untouched_aclSet (h : AclSet db db' iid gid p) (hne : g ≠ gid) : Untouched db db' g := by
  have ha := acl_of_aclSet h hne
  have hs := h.keysOnly.secrets
  obtain ⟨t, hi, hg, rfl, -⟩ := h
  exact .of_rows rfl ha (fun _ => Iff.rfl) (fun _ _ => Iff.rfl) (slot_of_same hs g)

theorem untouched_grant {op : AgeIdentity} {seed : Nat → String → Bytes} {e : String}
    {wraps : List (Nat × Bytes)}
    (hwraps : Bunker.wrapsForNewReader prim op seed db gid e = some wraps)
    (h : grantWithWraps db iid gid p wraps e = some db') (hne : g ≠ gid) : Untouched db db' g := by
  have hs := (KeysOnly.of_acl (granted_acl hwraps h)).secrets
  obtain ⟨mid, t, hw, hset, rfl, hmem⟩ := granted_spec hwraps h
  have ha := acl_of_aclSet hset hne
  obtain ⟨ta, hi, hg, rfl, -⟩ := hset
  refine .of_rows rfl ha (fun _ => Iff.rfl) ?_ (slot_of_same hs g)
  refine wraps_of_ne hmem (fun w hc => hc.1) ?_ hne
  rintro w ⟨q, -, rfl⟩
  rfl

theorem untouched_revoke {n : Nat} {r : String}
    (h : revokeReadAndRotate db gid iid p r wraps = some (n, db')) (hne : g ≠ gid) :
    Untouched db db' g := by
  have hs := (KeysOnly.of_acl (revoked_acl h)).secrets
  obtain ⟨mid, hset, -, td, hd, tw, hw, rfl, htd, htw⟩ := revokeReadAndRotate_spec h
  have ha := acl_of_aclSet hset hne
  obtain ⟨ta, hi, hg, rfl, -⟩ := hset
  exact .of_rows rfl ha (deks_of_ne htd hne)
    (wraps_of_ne htw (fun w hc => hc.1) (fun w => groupId_of_wrapped) hne) (slot_of_same hs g)

theorem untouched_addDek {n : Nat} (h : addDek db gid wraps = some (n, db')) (hne : g ≠ gid) :
    Untouched db db' g := by
  obtain ⟨-, td, hd, tw, hw, rfl, htd, htw⟩ := dekAdded_addDek h
  refine .of_rows rfl (fun _ _ => Iff.rfl) (deks_of_ne htd hne) ?_ fun _ => rfl
  intro w hwg
  show w ∈ tw ↔ _
  rw [htw]
  exact or_iff_left fun hn => hne (hwg.symm.trans (groupId_of_wrapped hn))

theorem untouched_createGroup {name : String} (hp : p ≠ 0)
    (h : Store.createGroup db name wraps iid p = some db') :
    (∀ n, n ≠ name → groupId db' n = groupId db n) ∧
      ∀ r ∈ db.secretGroup, Untouched db db' r.id := by
  obtain ⟨new, t, hg, mid, hnew, ht, hadd, hset⟩ := createGroup_spec hp h
  have hs : SameSecrets db db' := (hadd.deksOnly.toKeysOnly.trans hset.keysOnly).secrets
  obtain ⟨td, hd, tw, hw, rfl, htd, htw⟩ := hadd
  constructor
  · intro n hn
    obtain ⟨_, _, _, rfl, -⟩ := hset
    refine Option.ext fun gid => ?_
    rw [groupId_eq_some, groupId_eq_some]
    show _ ∈ t ↔ _
    rw [ht, GroupRow.mk.injEq]
    exact or_iff_left fun hc => hn hc.2
  · intro r hr
    have hne : r.id ≠ new := (hnew r hr).1
    have ha := acl_of_aclSet hset hne
    obtain ⟨_, _, _, rfl, -⟩ := hset
    refine .of_rows rfl ha (deks_of_ne htd hne) ?_ (slot_of_same hs r.id)
    intro w hwg
    show w ∈ tw ↔ _
    rw [htw]
    exact or_iff_left fun hn => hne (hwg.symm.trans (groupId_of_wrapped hn))

theorem untouched_addIdentity {name e : String} {admin : Bool}
    (h : Store.addIdentity db name e admin = some db') : Untouched db db' g := by
  obtain ⟨i, t, ht, -, -, hnew, rfl, hmem⟩ := addIdentity_spec h
  refine ⟨fun x => ?_, fun _ => Iff.rfl, fun _ _ => Iff.rfl, fun _ => rfl⟩
  rw [mem_aclEntriesFull, mem_aclEntriesFull]
  refine exists_congr fun j => ⟨?_, ?_⟩
  · rintro ⟨hj, hn, he, ha⟩
    rcases (hmem j).mp hj with hj | rfl
    · exact ⟨hj, hn, he, ha⟩
    · -- 新しい identity を指す ACL の行は無い
      obtain ⟨k, hk, hid⟩ := db.aclIdentity _ ha
      exact absurd hid (hnew k hk).1
  · rintro ⟨hj, hn, he, ha⟩
    exact ⟨(hmem j).mpr (Or.inl hj), hn, he, ha⟩

theorem untouched_setServiceAdmin (name : String) (admin : Bool) :
    Untouched db (db.setServiceAdmin name admin) g := by
  refine ⟨fun x => ?_, fun _ => Iff.rfl, fun _ _ => Iff.rfl, fun _ => rfl⟩
  rw [mem_aclEntriesFull, mem_aclEntriesFull]
  constructor
  · rintro ⟨j, hj, hn, he, ha⟩
    obtain ⟨i, hi, rfl⟩ := mem_setServiceAdmin.mp hj
    rw [Db.flagAdmin_name] at hn
    rw [Db.flagAdmin_endpointId] at he
    rw [Db.flagAdmin_id] at ha
    exact ⟨i, hi, hn, he, ha⟩
  · rintro ⟨i, hi, hn, he, ha⟩
    refine ⟨_, mem_setServiceAdmin.mpr ⟨i, hi, rfl⟩, ?_, ?_, ?_⟩
    · rw [Db.flagAdmin_name, hn]
    · rw [Db.flagAdmin_endpointId, he]
    · rw [Db.flagAdmin_id]
      exact ha

/-- 消える identity が ACL に居ない group には何も起きない。 -/
theorem untouched_remove {target : Identity} {rotations : List GroupRotation}
    (ht : target ∈ db.identity)
    (hrots : Bunker.removalRotations prim inner amb db target = some rotations)
    (h : removeIdentityWithRotations db target.name rotations = some (true, db'))
    (habs : ∀ a ∈ db.groupAcl, a.identityId = target.id → a.groupId ≠ g) : Untouched db db' g := by
  have hall := removed_rotates hrots h
  have hs : SameSecrets db db' := hall.deksOnly.secrets
  obtain ⟨hkeys, -⟩ := removalRotations_spec hrots
  -- 回す group は READ のある group なので、ACL に行がある
  have hrot : ∀ rot ∈ rotations, rot.1 ≠ g := by
    intro rot hm
    have hread := mem_groupsWithRead.mp (hkeys ▸ List.mem_map_of_mem hm)
    obtain ⟨a, ha, hai, hag, -⟩ := hasBit_perms.mp hread
    exact hag ▸ habs a ha hai
  obtain ⟨td, hd, tw, hw, rfl, htd, htw⟩ := hall
  refine ⟨fun e => ?_, ?_, ?_, slot_of_same hs g⟩
  · rw [mem_aclEntriesFull, mem_aclEntriesFull]
    refine exists_congr fun i => ⟨?_, ?_⟩
    · rintro ⟨hi, hn, he, ha⟩
      exact ⟨(Table.mem_delete.mp hi).1, hn, he, (Table.mem_cascade.mp ha).1⟩
    · rintro ⟨hi, hn, he, ha⟩
      have hname : ∀ j ∈ db.identity, j.id = i.id → (j.name == target.name) = false := by
        intro j hj hid
        rw [beq_eq_false_iff_ne]
        intro hc
        have hjt : j = target := Table.eq_of_conflict hj ht (Or.inr (Or.inr hc))
        exact habs _ ha (hid.symm.trans (congrArg Identity.id hjt)) rfl
      exact ⟨Table.mem_delete.mpr ⟨hi, hname i hi rfl⟩, hn, he, Table.mem_cascade.mpr ⟨ha, hname⟩⟩
  · intro v
    show _ ∈ td ↔ _
    rw [htd]
    refine or_iff_left ?_
    rintro ⟨rot, hm, he⟩
    exact hrot rot hm (DekRow.mk.inj he).1.symm
  · rintro w rfl
    show w ∈ tw ↔ _
    rw [htw]
    constructor
    · rintro (⟨hm, -⟩ | ⟨rot, hm, q, -, rfl⟩)
      · exact hm
      · exact absurd rfl (hrot rot hm)
    · exact fun hm => Or.inl ⟨hm, fun rot hr hc => hrot rot hr hc.1.symm⟩

end Writes

/-! ## 要求一つ -/

/-- 名前で引いた group に何も起きていない。無かった group は無いままである。 -/
def Unmoved (db db' : Db) (g : String) : Prop :=
  groupId db' g = groupId db g ∧ ∀ gid, groupId db g = some gid → Untouched db db' gid

variable {g : String}

theorem groupId_congr (h : db'.secretGroup = db.secretGroup) : groupId db' g = groupId db g := by
  unfold groupId
  rw [h]

theorem Unmoved.audit (h : Unmoved db db' g) (log : List AuditRow) :
    Unmoved db (db'.withAudit log) g := ⟨h.1, fun gid hg => (h.2 gid hg).audit log⟩

/-- `group` だけに触れる書き込み。 -/
theorem unmoved_of_one {group : String} {gid : Nat} (hg : groupId db group = some gid)
    (hgroups : db'.secretGroup = db.secretGroup) (hne : g ∉ [group])
    (h : ∀ k, k ≠ gid → Untouched db db' k) : Unmoved db db' g := by
  refine ⟨groupId_congr hgroups, fun k hk => h k ?_⟩
  rintro rfl
  exact hne (List.mem_singleton.mpr (groupId_inj hk hg))

/-- 告げない group は、動いていない。 -/
theorem unmoved_effect (hc : Complete db) {req : Request} {resp : Response}
    (h : Effect prim inner amb db ident req resp db')
    (hg : g ∉ Bunker.touchedGroups req (Bunker.removalScope db req)) : Unmoved db db' g := by
  have hleaves := h.leaves
  cases h with
  | none _ => exact ⟨rfl, fun gid _ => .refl db gid⟩
  | put auth _ _ stored =>
    obtain ⟨-, -, hset⟩ := putSecret_applied hc stored
    obtain ⟨_, _, _, _, rfl⟩ := putSecret_only stored
    refine unmoved_of_one (groupId_of_authorizeGroup auth) rfl hg fun k hk => ?_
    exact .of_rows rfl (fun _ _ => Iff.rfl) (fun _ => Iff.rfl) (fun _ _ => Iff.rfl)
      (slot_of_set hc hset hk)
  | delete auth removed =>
    obtain ⟨-, hset⟩ := deleteSecret_applied hc removed
    obtain ⟨_, _, _, _, rfl⟩ := deleteSecret_only removed
    refine unmoved_of_one (groupId_of_authorizeGroup auth) rfl hg fun k hk => ?_
    exact .of_rows rfl (fun _ _ => Iff.rfl) (fun _ => Iff.rfl) (fun _ _ => Iff.rfl)
      (slot_of_set hc hset hk)
  | createGroup _ _ _ created =>
    obtain ⟨hgroups, hold⟩ := untouched_createGroup (by decide) created
    exact ⟨hgroups g fun he => hg (List.mem_singleton.mpr he),
      fun gid hgid => hold _ (groupId_eq_some.mp hgid)⟩
  | addIdentity _ _ added =>
    exact ⟨groupId_congr (hleaves.secretGroup rfl), fun gid _ => untouched_addIdentity added⟩
  | @removeIdentity name target rotations _ _ named rotated removed =>
    obtain ⟨ht, rfl⟩ := identityByName_eq_some.mp named
    refine ⟨groupId_congr (hleaves.secretGroup rfl), fun gid hgid => ?_⟩
    refine (untouched_remove ht rotated removed fun a ha hai hag => hg ?_).auditRotations _ _ _
    -- ACL に行があれば、振り分けの前に引いた名前の中にある
    unfold Bunker.touchedGroups Bunker.removalScope
    dsimp only
    rw [named]
    exact List.mem_map.mpr ⟨(g, a.perms), mem_groupsForIdentity.mpr
      ⟨gid, hgid, by rw [← hai, ← hag]; exact ha⟩, rfl⟩
  | setServiceAdmin _ _ _ => exact ⟨rfl, fun gid _ => untouched_setServiceAdmin _ _⟩
  | gainRead auth _ _ _ wrapped granted =>
    exact unmoved_of_one (groupId_of_authorizeGroup auth) (hleaves.secretGroup rfl) hg
      fun k hk => untouched_grant wrapped granted hk
  | loseRead auth _ _ _ _ revoked =>
    exact unmoved_of_one (groupId_of_authorizeGroup auth) (hleaves.secretGroup rfl) hg
      fun k hk => (untouched_revoke revoked hk).auditRotations _ _ _
  | keepRead auth _ _ set =>
    exact unmoved_of_one (groupId_of_authorizeGroup auth) (hleaves.secretGroup rfl) hg
      fun k hk => untouched_aclSet (aclSet_setPerms set) hk
  | rotateDek auth _ added =>
    exact unmoved_of_one (groupId_of_authorizeGroup auth) (hleaves.secretGroup rfl) hg
      fun k hk => untouched_addDek added hk

/-- **知らされなかった group には何も起きていない。** -/
theorem unmoved_handle (hc : Complete db) (remote : String) (req : Request)
    (hg : g ∉ (Bunker.handle prim inner amb db remote req).published) :
    Unmoved db (Bunker.handle prim inner amb db remote req).db g := by
  suffices h : Unmoved db (Bunker.dispatch prim inner amb db remote req).2 g from h.audit _
  have hg : g ∉ (if auditOutcome (Bunker.dispatch prim inner amb db remote req).1 = "ok"
      then Bunker.touchedGroups req (Bunker.removalScope db req) else []) := hg
  rcases @dispatch_cases prim inner amb db remote req with ⟨-, h⟩ | ⟨ident, -, h⟩
  · rw [h]
    exact ⟨rfl, fun gid _ => .refl db gid⟩
  · split at hg
    · exact unmoved_effect hc h hg
    · next hok =>
      -- 失敗の応答なら、database は変わっていない
      rw [h.unchanged hok]
      exact ⟨rfl, fun gid _ => .refl db gid⟩

/-! ## 同期の session から見えるもの -/

namespace SyncServer

/-- 名前で引いた group の snapshot。 -/
def snapshotOf (db : Db) (group remote : String) : Option GroupSyncState :=
  (groupId db group).map fun gid => snapshotGroup db gid group remote

variable {gid : Nat}

theorem dekVersions_of_untouched (h : Untouched db db' gid) :
    dekVersions db' gid = dekVersions db gid := by
  have hnd : ∀ d : Db, ((dekVersions d gid).map id).Nodup := fun d => by
    rw [List.map_id]
    exact dekVersions_nodup d gid
  refine sortOn_congr (hnd db') (hnd db) fun v => ?_
  exact mem_dekVersions.trans ((h.deks v).trans mem_dekVersions.symm)

theorem dekWrap_of_untouched (h : Untouched db db' gid) (v : Nat) (r : String) :
    Store.dekWrap db' gid v r = Store.dekWrap db gid v r := by
  refine Option.ext fun b => ?_
  rw [dekWrap_eq_some, dekWrap_eq_some]
  exact h.wraps _ rfl

theorem snapshotGroup_of_untouched (h : Untouched db db' gid) (group remote : String) :
    snapshotGroup db' gid group remote = snapshotGroup db gid group remote := by
  have hacl : aclEntriesFull db' gid = aclEntriesFull db gid :=
    sortOn_congr (aclEntriesFull_nodup db' gid) (aclEntriesFull_nodup db gid) h.acl
  have hsecrets : secretEntries db' gid = secretEntries db gid := by
    refine sortOn_congr (secretEntries_nodup db' gid) (secretEntries_nodup db gid) fun e => ?_
    refine mem_secretEntries.trans (Iff.trans ?_ mem_secretEntries.symm)
    rw [(Prod.mk.inj (h.secrets e.1)).2]
  unfold snapshotGroup
  rw [hacl, hsecrets, dekVersions_of_untouched h]
  simp only [dekWrap_of_untouched h]

theorem snapshotOf_of_unmoved {g : String} (h : Unmoved db db' g) (remote : String) :
    snapshotOf db' g remote = snapshotOf db g remote := by
  unfold snapshotOf
  rw [h.1]
  cases hg : groupId db g with
  | none => rfl
  | some gid => exact congrArg some (snapshotGroup_of_untouched (h.2 gid hg) g remote)

/-- 同期の認可は、group の ACL だけで決まる。 -/
theorem syncReadAuthorized_iff_acl {remote group : String} :
    syncReadAuthorized db remote group = some gid ↔
      groupId db group = some gid ∧
        ∃ e ∈ aclEntriesFull db gid, e.2.1 = remote ∧ hasBit e.2.2 permRead = true := by
  rw [syncReadAuthorized_eq_some]
  refine and_congr_right fun _ => ⟨?_, ?_⟩
  · rintro ⟨i, hi, he, hb⟩
    obtain ⟨a, ha, hai, hag, hab⟩ := hasBit_perms.mp hb
    exact ⟨(i.name, i.endpointId, a.perms), mem_aclEntriesFull.mpr
      ⟨i, hi, rfl, rfl, by rw [← hai, ← hag]; exact ha⟩, he, hab⟩
  · rintro ⟨e, he, her, hb⟩
    obtain ⟨i, hi, -, hie, ha⟩ := mem_aclEntriesFull.mp he
    exact ⟨i, hi, hie.trans her, hasBit_perms.mpr ⟨_, ha, rfl, rfl, hb⟩⟩

theorem syncReadAuthorized_of_unmoved {g : String} (h : Unmoved db db' g) (remote : String) :
    syncReadAuthorized db' remote g = syncReadAuthorized db remote g := by
  refine Option.ext fun gid => ?_
  rw [syncReadAuthorized_iff_acl, syncReadAuthorized_iff_acl, h.1]
  refine and_congr_right fun hg => ?_
  simp only [(h.2 gid hg).acl]

/-- scope は、読める group の名前である。 -/
theorem mem_currentScopeNames {remote g : String} :
    g ∈ currentScopeNames db remote ↔ syncReadAuthorized db remote g ≠ none := by
  unfold currentScopeNames
  rw [Option.ne_none_iff_exists']
  cases hs : scopeOf db remote with
  | some scope =>
    rw [Option.getD_some, List.mem_map]
    constructor
    · rintro ⟨⟨gid, name⟩, hm, rfl⟩
      exact ⟨gid, (mem_scopeOf hs).mp hm⟩
    · rintro ⟨gid, hgid⟩
      exact ⟨(gid, g), (mem_scopeOf hs).mpr hgid, rfl⟩
  | none =>
    refine iff_of_false List.not_mem_nil ?_
    rintro ⟨gid, hgid⟩
    obtain ⟨-, i, hi, he, -⟩ := syncReadAuthorized_eq_some.mp hgid
    rw [scopeOf, identityByEndpoint_eq_some.mpr ⟨hi, he⟩] at hs
    cases hs

theorem currentScopeNames_sorted (db : Db) (remote : String) :
    (currentScopeNames db remote).Pairwise (· ≤ ·) ∧ (currentScopeNames db remote).Nodup := by
  unfold currentScopeNames scopeOf
  cases identityByEndpoint db remote with
  | none => exact ⟨List.Pairwise.nil, List.nodup_nil⟩
  | some i =>
    show (List.map Prod.snd (readScope db i.id)).Pairwise _ ∧ _
    refine ⟨List.pairwise_map.mpr (sorted_sortOn Prod.snd _), ?_⟩
    refine sortOn_map_nodup ?_
    rw [List.map_map]
    exact (groupNames_nodup db).sublist (List.filter_sublist.map _)

/-- 範囲が変わったなら、入ったか外れたかした group がある。 -/
theorem exists_scope_difference {remote : String}
    (h : currentScopeNames db' remote ≠ currentScopeNames db remote) :
    ∃ g, ¬ (g ∈ currentScopeNames db' remote ↔ g ∈ currentScopeNames db remote) := by
  by_contra hno
  obtain ⟨hs', hn'⟩ := currentScopeNames_sorted db' remote
  obtain ⟨hs, hn⟩ := currentScopeNames_sorted db remote
  have hperm := (List.perm_ext_iff_of_nodup hn' hn).mpr fun g =>
    not_not.mp fun hc => hno ⟨g, hc⟩
  exact h (hperm.eq_of_pairwise (fun a b _ _ hab hba => le_antisymm hab hba) hs' hs)

end SyncServer

open SyncServer

/--
**変わったものは必ず知らされる。** `init` からどの操作の列を経た store でも、要求が group の
snapshot（ACL、endpoint `r` の wrap、secret の一覧）を変えたなら、その group は同じ要求で
知らされる。READ の範囲が変わったなら、出入りした group が知らされる。失敗の応答では何も
知らされない。
-/
theorem changes_announced {op backup endpoint name : String} {db₀ : Db}
    (hinit : Node.init op backup endpoint name = some db₀) (ops : List (Node.Op × Ambient))
    (inner : Inner) (amb : Ambient) (remote : String) (req : Request) :
    let db := Node.exec prim db₀ ops
    let out := Bunker.handle prim inner amb db remote req
    (∀ g r, snapshotOf out.db g r ≠ snapshotOf db g r → g ∈ out.published) ∧
      (∀ r, currentScopeNames out.db r ≠ currentScopeNames db r → ∃ g ∈ out.published,
        ¬ (g ∈ currentScopeNames out.db r ↔ g ∈ currentScopeNames db r)) ∧
      ((out.response = .denied ∨ (∃ c, out.response = .versionConflict c) ∨
        ∃ reason, out.response = .failed reason) → out.published = []) := by
  intro db out
  have hc : Complete db := complete_exec (complete_init hinit) ops
  have hstill : ∀ g, g ∉ out.published → Unmoved db out.db g := fun g => unmoved_handle hc remote req
  refine ⟨?_, ?_, ?_⟩
  · intro g r hne
    exact not_not.mp fun hg => hne (snapshotOf_of_unmoved (hstill g hg) r)
  · intro r hne
    obtain ⟨g, hg⟩ := exists_scope_difference hne
    refine ⟨g, not_not.mp fun hnp => hg ?_, hg⟩
    rw [mem_currentScopeNames, mem_currentScopeNames, syncReadAuthorized_of_unmoved (hstill g hnp)]
  · intro hfail
    have hout : auditOutcome out.response ≠ "ok" := by
      rcases hfail with h | ⟨c, h⟩ | ⟨reason, h⟩
      · rw [h]
        decide
      · rw [h]
        exact (show "conflict" ≠ "ok" by decide)
      · rw [h]
        exact (show "failed" ≠ "ok" by decide)
    exact if_neg hout

/-- READ を与えると、その group の snapshot も grantee の範囲も変わり、group が知らされる。 -/
theorem changes_announced_sample :
    let db := Node.exec plain sampleDb (sampleGranted.take 2)
    let out := Bunker.handle plain sampleInner (sampleAmbient 3) db (samplePeer 'a')
      (.grant "g" "bob" permRead)
    snapshotOf out.db "g" (samplePeer 'b') ≠ snapshotOf db "g" (samplePeer 'b') ∧
      "g" ∈ out.published ∧ out.published = ["g"] := by
  intro db out
  have hne : snapshotOf out.db "g" (samplePeer 'b') ≠ snapshotOf db "g" (samplePeer 'b') := by decide
  exact ⟨hne, (changes_announced init_sampleDb (sampleGranted.take 2) sampleInner (sampleAmbient 3)
    (samplePeer 'a') (.grant "g" "bob" permRead)).1 "g" (samplePeer 'b') hne, by decide⟩

end SecretBunker
