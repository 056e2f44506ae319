import SecretBunker.Store.Apply

/-!
# mirror の見え方

mirror を group の名前だけで見る。rowid は反映のたびに変わりうるが、見え方には現れない。
反映、group の削除、identity の掃除がこの見え方をどう動かすかを述べる。
-/

namespace SecretBunker

open Relational

/-- group 一つの中身のうち、mirror に写るもの。 -/
@[ext] structure GroupView where
  acl : List (String × String × UInt8)
  wraps : List (Nat × Bytes)
  listed : List (String × Nat)
  secrets : String → Option SecretVersion

namespace Store

variable {db db' : Db} {own : String}

/-- group の見え方。 -/
def groupView (db : Db) (own : String) (gid : Nat) : GroupView :=
  ⟨aclEntriesFull db gid, wrapsForRecipient db gid own, listSecrets db gid, secretCurrent db gid⟩

/-- 名前で引いた group の見え方。 -/
def viewOf (db : Db) (own name : String) : Option GroupView :=
  (groupId db name).map (groupView db own)

/-- 名前で引いた secret の見え方。 -/
def slotOf (db : Db) (group name : String) : Option Nat × Option SecretDataRow :=
  ((groupId db group).map fun gid => slot db gid name).getD (none, none)

/-- 名前で引いた wrap。 -/
def wrapOf (db : Db) (own group : String) (version : Nat) : Option Bytes :=
  (groupId db group).bind fun gid => dekWrap db gid version own

theorem slotOf_eq {group name : String} {gid : Nat} (h : groupId db group = some gid) :
    slotOf db group name = slot db gid name := by
  unfold slotOf
  rw [h]
  rfl

theorem slotOf_absent {group name : String} (h : groupId db group = none) :
    slotOf db group name = (none, none) := by
  unfold slotOf
  rw [h]
  rfl

theorem wrapOf_eq_some {group : String} {v : Nat} {b : Bytes} :
    wrapOf db own group v = some b ↔
      ∃ gid, groupId db group = some gid ∧ ⟨gid, v, own, b⟩ ∈ db.dekWrap := by
  unfold wrapOf
  simp only [Option.bind_eq_some_iff, dekWrap_eq_some]

theorem mem_wrapsForRecipient {gid : Nat} {w : Nat × Bytes} :
    w ∈ wrapsForRecipient db gid own ↔ ⟨gid, w.1, own, w.2⟩ ∈ db.dekWrap := by
  unfold wrapsForRecipient
  rw [mem_sortOn, List.mem_map]
  constructor
  · rintro ⟨r, hr, rfl⟩
    obtain ⟨hr, hp⟩ := List.mem_filter.mp hr
    rw [Bool.and_eq_true, beq_iff_eq, beq_iff_eq] at hp
    rw [← hp.1, ← hp.2]
    exact hr
  · intro h
    exact ⟨_, List.mem_filter.mpr ⟨h, by simp⟩, rfl⟩

theorem wrapsForRecipient_nodup (db : Db) (gid : Nat) (own : String) :
    ((wrapsForRecipient db gid own).map Prod.fst).Nodup := by
  refine sortOn_map_nodup ?_
  rw [List.map_map]
  refine Table.map_filter_nodup ?_ db.dekWrap
  intro a b ha hb he
  rw [Bool.and_eq_true, beq_iff_eq, beq_iff_eq] at ha hb
  exact ⟨ha.1.trans hb.1.symm, he, ha.2.trans hb.2.symm⟩

/-- 行の集まりが同じなら、見え方は同じである。 -/
theorem groupView_congr {gid gid' : Nat}
    (hacl : ∀ e, e ∈ aclEntriesFull db' gid' ↔ e ∈ aclEntriesFull db gid)
    (hwraps : ∀ v b, ⟨gid', v, own, b⟩ ∈ db'.dekWrap ↔ ⟨gid, v, own, b⟩ ∈ db.dekWrap)
    (hversion : ∀ n, secretVersion db' gid' n = secretVersion db gid n)
    (hcurrent : ∀ n, secretCurrent db' gid' n = secretCurrent db gid n) :
    groupView db' own gid' = groupView db own gid := by
  refine GroupView.ext ?_ ?_ ?_ (funext hcurrent)
  · exact sortOn_congr (aclEntriesFull_nodup db' gid') (aclEntriesFull_nodup db gid) hacl
  · refine sortOn_congr (wrapsForRecipient_nodup db' gid' own) (wrapsForRecipient_nodup db gid own) ?_
    intro w
    exact mem_wrapsForRecipient.trans ((hwraps w.1 w.2).trans mem_wrapsForRecipient.symm)
  · refine sortOn_congr (listSecrets_nodup db' gid') (listSecrets_nodup db gid) ?_
    intro e
    refine mem_listSecrets.trans (Iff.trans ?_ mem_listSecrets.symm)
    rw [hversion]

theorem secretCurrent_of_slot {gid gid' : Nat} {name : String}
    (h : slot db' gid' name = slot db gid name) :
    secretVersion db' gid' name = secretVersion db gid name ∧
      secretCurrent db' gid' name = secretCurrent db gid name := by
  obtain ⟨hv, hd⟩ := Prod.mk.inj h
  refine ⟨hv, ?_⟩
  rw [secretCurrent_eq, secretCurrent_eq, hd]

theorem unchanged_iff {gid : Nat} {e : SecretEntry} :
    unchanged db gid e = true ↔ ∃ r, secretDataCurrent db gid e.name = some r ∧
      r.version = e.currentVersion ∧ r.dekVersion = e.dekVersion ∧ r.nonce = e.nonce := by
  unfold unchanged
  rw [secretCurrent_eq]
  cases secretDataCurrent db gid e.name with
  | none => simp
  | some r => simp [and_assoc]

/-- 取り寄せなかった名前の行は、手元にあって一覧の行と一致している。 -/
theorem current_of_not_needed {s : GroupSyncState} {e : SecretEntry} (he : e ∈ s.secrets)
    (hn : e.name ∉ secretsNeedingFetch db s) :
    ∃ r, (slotOf db s.name e.name).2 = some r ∧ r.version = e.currentVersion ∧
      r.dekVersion = e.dekVersion ∧ r.nonce = e.nonce := by
  unfold secretsNeedingFetch at hn
  cases hg : groupId db s.name with
  | none =>
    rw [hg] at hn
    exact absurd (List.mem_map_of_mem he) hn
  | some gid =>
    rw [hg] at hn
    have hsame : unchanged db gid e = true := by
      by_contra hne
      exact hn (List.mem_map_of_mem (List.mem_filter.mpr ⟨he, by simpa using hne⟩))
    rw [slotOf_eq hg]
    exact unchanged_iff.mp hsame

/-! ## 反映 -/

namespace Applied

variable {state : GroupSyncState} {fetched : List FetchedSecret} {gid : Nat}

variable (h : Applied own state fetched gid db db')
include h

/-- 揃えた id は、ほかの名前の group の id ではない。 -/
theorem ne_of_ne {name : String} {g : Nat} (hn : name ≠ state.name)
    (hg : groupId db name = some g) : g ≠ gid := by
  rintro rfl
  exact hn (groupId_inj ((h.others name hn).trans hg) h.located)

/-- まだ無かった group の id を指す行は無い。 -/
theorem slot_before (name : String) : slot db gid name = slotOf db state.name name := by
  cases hg : groupId db state.name with
  | some g => rw [slotOf_eq hg, h.before g hg]
  | none =>
    rw [slotOf_absent hg]
    refine slot_of_absent (secretRow_eq_none.mpr ?_)
    intro s hs hsg
    obtain ⟨r, hr, hrs⟩ := db.secretInGroup s hs
    have hid : r.id = gid := hrs.trans hsg
    have hrow : groupId db r.name = some gid := by
      rw [groupId_eq_some, ← hid]
      exact hr
    have hne : r.name ≠ state.name := groupId_eq_none.mp hg r hr
    exact absurd rfl (h.ne_of_ne hne hrow)

theorem slotOf (group name : String) :
    slotOf db' group name =
      if group = state.name then
        if ∀ e ∈ state.secrets, e.name ≠ name then (none, none)
        else fetchedSlot fetched name (Store.slotOf db group name)
      else Store.slotOf db group name := by
  by_cases hg : group = state.name
  · rw [if_pos hg, hg, slotOf_eq h.located, h.secrets, if_pos rfl, h.slot_before]
  · rw [if_neg hg]
    unfold Store.slotOf
    rw [h.others group hg]
    cases hgid : groupId db group with
    | none => rfl
    | some g =>
      rw [Option.map_some, Option.map_some, h.secrets, if_neg (h.ne_of_ne hg hgid)]

/-- 反映の後の行は、前のままか、消えたか、取り寄せた行である。 -/
theorem slotOf_cases (group name : String) :
    Store.slotOf db' group name = Store.slotOf db group name ∨
      Store.slotOf db' group name = (none, none) ∨
      group = state.name ∧ ∃ f ∈ fetched, f.name = name ∧
        Store.slotOf db' group name = (some f.version, some f.toSecretDataRow) := by
  rw [h.slotOf]
  split
  · next hg =>
    split
    · exact Or.inr (Or.inl rfl)
    · unfold fetchedSlot
      cases hl : latest fetched name with
      | none => exact Or.inl rfl
      | some f => exact Or.inr (Or.inr ⟨hg, f, (latest_eq_some hl).1, (latest_eq_some hl).2, rfl⟩)
  · exact Or.inl rfl

theorem wrapOf (group : String) (v : Nat) :
    wrapOf db' own group v =
      if group = state.name then latestDek state.deks v else Store.wrapOf db own group v := by
  refine Option.ext fun b => ?_
  rw [wrapOf_eq_some]
  by_cases hg : group = state.name
  · rw [if_pos hg, hg, h.located]
    simp [h.wraps]
  · rw [if_neg hg, h.others group hg, wrapOf_eq_some]
    refine exists_congr fun g => and_congr_right fun hgid => ?_
    have hne := h.ne_of_ne hg hgid
    rw [h.wraps]
    exact ⟨fun hc => (hc.resolve_right fun hc => hne hc.1).1, fun hc => Or.inl ⟨hc, hne⟩⟩

/-- 揃えた group の ACL は、状態の ACL である。 -/
theorem mem_aclEntriesFull {e : String × String × UInt8} :
    e ∈ aclEntriesFull db' gid ↔ ⟨e.1, e.2.1, e.2.2⟩ ∈ effectiveAcl state.acl := by
  rw [Store.mem_aclEntriesFull]
  constructor
  · rintro ⟨i, hi, hn, he, ha⟩
    obtain ⟨x, hx, j, hj, hid, hje, hp⟩ := (h.acl.granted _ rfl).mp ha
    obtain ⟨k, hk, hke, hkn, -⟩ := h.acl.holders x hx
    obtain rfl : j = i := Table.eq_of_conflict hj hi (Or.inl hid)
    obtain rfl : k = j := Table.eq_of_conflict hk hj (Or.inr (Or.inl (hke.trans hje.symm)))
    rw [← hn, ← he, hkn, hke]
    exact (show e.2.2 = x.perms from hp) ▸ hx
  · intro hx
    obtain ⟨i, hi, hie, hin, -⟩ := h.acl.holders _ hx
    exact ⟨i, hi, hin, hie, (h.acl.granted _ rfl).mpr ⟨_, hx, i, hi, rfl, hie, rfl⟩⟩

/-- ほかの group に残った許可の identity は、名前も endpoint も前のままである。 -/
theorem holder_kept {g : Nat} (hne : g ≠ gid)
    (hag : ∀ e ∈ aclEntriesFull db g, Agrees (effectiveAcl state.acl) e.1 e.2.1) {a : AclRow}
    (ha : a ∈ db'.groupAcl) (hag' : a.groupId = g) {i' : Identity} (hi' : i' ∈ db'.identity)
    (hid : i'.id = a.identityId) :
    a ∈ db.groupAcl ∧ ∃ i ∈ db.identity, i.id = i'.id ∧ i.name = i'.name ∧
      i.endpointId = i'.endpointId ∧ (i.serviceAdmin = false → i'.serviceAdmin = false) := by
  have ha₀ := h.acl.others a ha (hag' ▸ hne)
  obtain ⟨i, hi, hia⟩ := db.aclIdentity a ha₀
  have hia : i.id = a.identityId := hia
  have hmem : (i.name, i.endpointId, a.perms) ∈ aclEntriesFull db g := by
    refine Store.mem_aclEntriesFull.mpr ⟨i, hi, rfl, rfl, ?_⟩
    rw [hia, ← hag']
    exact ha₀
  obtain ⟨⟨j, hj, hjid, hjn, hje, hadm⟩, -⟩ := h.acl.kept i hi (hag _ hmem)
  obtain rfl : j = i' := Table.eq_of_conflict hj hi' (Or.inl (hjid.trans (hia.trans hid.symm)))
  exact ⟨ha₀, i, hi, hjid.symm, hjn.symm, hje.symm, hadm⟩

theorem aclEntriesFull_other {g : Nat} (hne : g ≠ gid)
    (hag : ∀ e ∈ aclEntriesFull db g, Agrees (effectiveAcl state.acl) e.1 e.2.1)
    (e : String × String × UInt8) : e ∈ aclEntriesFull db' g ↔ e ∈ aclEntriesFull db g := by
  constructor
  · intro he
    obtain ⟨i', hi', hn, hep, ha⟩ := Store.mem_aclEntriesFull.mp he
    obtain ⟨ha₀, i, hi, hid, hin, hie, -⟩ := h.holder_kept hne hag ha rfl hi' rfl
    refine Store.mem_aclEntriesFull.mpr ⟨i, hi, hin.trans hn, hie.trans hep, ?_⟩
    rw [hid]
    exact ha₀
  · intro he
    obtain ⟨i, hi, hn, hep, ha⟩ := Store.mem_aclEntriesFull.mp he
    have hagi : Agrees (effectiveAcl state.acl) i.name i.endpointId := by
      rw [hn, hep]
      exact hag e he
    obtain ⟨⟨j, hj, hjid, hjn, hje, -⟩, hrows⟩ := h.acl.kept i hi hagi
    refine Store.mem_aclEntriesFull.mpr ⟨j, hj, hjn.trans hn, hje.trans hep, ?_⟩
    rw [hjid]
    exact hrows _ ha rfl hne

/-- 状態の ACL と食い違わない group の見え方は、反映の後も変わらない。 -/
theorem viewOf_other {name : String} (hn : name ≠ state.name)
    (hag : ∀ v, viewOf db own name = some v → ∀ e ∈ v.acl, Agrees (effectiveAcl state.acl) e.1 e.2.1) :
    viewOf db' own name = viewOf db own name := by
  unfold viewOf at hag ⊢
  rw [h.others name hn]
  cases hg : groupId db name with
  | none => rfl
  | some g =>
    have hne := h.ne_of_ne hn hg
    rw [hg] at hag
    refine congrArg some (groupView_congr (h.aclEntriesFull_other hne (hag _ rfl)) ?_ ?_ ?_)
    · intro v b
      rw [h.wraps]
      exact ⟨fun hc => (hc.resolve_right fun hc => hne hc.1).1, fun hc => Or.inl ⟨hc, hne⟩⟩
    · intro n
      exact (secretCurrent_of_slot (by rw [h.secrets, if_neg hne])).1
    · intro n
      exact (secretCurrent_of_slot (by rw [h.secrets, if_neg hne])).2

end Applied

/-- 余計なものの無い group：wrap は自分宛てだけで、identity に管理者は居ない。 -/
def Clean (db : Db) (own name : String) : Prop :=
  ∀ gid, groupId db name = some gid →
    (∀ w ∈ db.dekWrap, w.groupId = gid → w.recipient = own) ∧
    ∀ a ∈ db.groupAcl, a.groupId = gid → ∀ i ∈ db.identity, i.id = a.identityId →
      i.serviceAdmin = false

namespace Applied

variable {state : GroupSyncState} {fetched : List FetchedSecret} {gid : Nat}

variable (h : Applied own state fetched gid db db')
include h

theorem clean : Clean db' own state.name := by
  intro g hg
  obtain rfl : g = gid := Option.some.inj (hg.symm.trans h.located)
  refine ⟨?_, ?_⟩
  · intro w hw hwg
    rcases (h.wraps w).mp hw with ⟨-, hne⟩ | ⟨-, hr, -⟩
    · exact absurd hwg hne
    · exact hr
  · intro a ha hag i hi hid
    obtain ⟨e, he, j, hj, hja, hje, -⟩ := (h.acl.granted a hag).mp ha
    obtain ⟨k, hk, hke, -, hadm⟩ := h.acl.holders e he
    obtain rfl : j = i := Table.eq_of_conflict hj hi (Or.inl (hja.trans hid.symm))
    obtain rfl : k = j := Table.eq_of_conflict hk hj (Or.inr (Or.inl (hke.trans hje.symm)))
    exact hadm

theorem clean_other {name : String} (hn : name ≠ state.name)
    (hag : ∀ v, viewOf db own name = some v → ∀ e ∈ v.acl, Agrees (effectiveAcl state.acl) e.1 e.2.1)
    (hc : Clean db own name) : Clean db' own name := by
  intro g hg
  rw [h.others name hn] at hg
  have hne := h.ne_of_ne hn hg
  have hag := hag (groupView db own g) (by rw [viewOf, hg]; rfl)
  obtain ⟨hw, hadm⟩ := hc g hg
  refine ⟨?_, ?_⟩
  · intro w hwm hwg
    rcases (h.wraps w).mp hwm with ⟨hwm, -⟩ | ⟨hwg', -⟩
    · exact hw w hwm hwg
    · exact absurd (hwg.symm.trans hwg') hne
  · intro a ha hag' i hi hid
    obtain ⟨ha₀, j, hj, hjid, -, -, hplain⟩ := h.holder_kept hne hag ha hag' hi hid
    exact hplain (hadm a ha₀ hag' j hj (hjid.trans hid))

end Applied

/-! ## group の削除 -/

/-- 消されない group の見え方、secret、wrap は変わらない。 -/
structure Dropped (name : String) (db db' : Db) : Prop where
  groups : ∀ n, groupId db' n = if n = name then none else groupId db n
  acl : ∀ n gid, groupId db' n = some gid → ∀ a, a.groupId = gid → (a ∈ db'.groupAcl ↔ a ∈ db.groupAcl)
  identities : db'.identity = db.identity
  wraps : ∀ n gid, groupId db' n = some gid → ∀ w, w.groupId = gid → (w ∈ db'.dekWrap ↔ w ∈ db.dekWrap)
  secrets : ∀ n gid, groupId db' n = some gid → ∀ s, slot db' gid s = slot db gid s

/-- 消した group の行だけが消える。 -/
theorem dropGroupLocal_spec (db : Db) (name : String) :
    Dropped name db (dropGroupLocal db name).2 := by
  have hmem : ∀ g, g ∈ (dropGroupLocal db name).2.secretGroup ↔ g ∈ db.secretGroup ∧ g.name ≠ name := by
    intro g
    show g ∈ db.secretGroup.delete _ ↔ _
    rw [Table.mem_delete, beq_eq_false_iff_ne]
  -- 残った group の id を持つ行は、cascade に掛からない
  have hkeep : ∀ n gid, groupId (dropGroupLocal db name).2 n = some gid →
      ∀ g ∈ db.secretGroup, g.id = gid → (g.name == name) = false := by
    intro n gid hg g hm hid
    obtain ⟨hg, hne⟩ := (hmem _).mp (groupId_eq_some.mp hg)
    rw [Table.eq_of_conflict hm hg (Or.inl hid), beq_eq_false_iff_ne]
    exact hne
  refine ⟨?_, ?_, rfl, ?_, ?_⟩
  · intro n
    refine Option.ext fun gid => ?_
    rw [groupId_eq_some, hmem]
    split
    · next hn => simp [hn]
    · next hn =>
      rw [groupId_eq_some]
      exact and_iff_left hn
  · rintro n gid hg a rfl
    show a ∈ db.groupAcl.cascade _ _ _ _ ↔ _
    rw [Table.mem_cascade]
    exact and_iff_left (hkeep n _ hg)
  · rintro n gid hg w rfl
    show w ∈ db.dekWrap.cascade _ _ _ _ ↔ _
    rw [Table.mem_cascade]
    exact and_iff_left (hkeep n _ hg)
  · intro n gid hg s
    have hdel : slot (db.deleteSecret (db.secretOfDeleted (·.name == name))) gid s = slot db gid s := by
      refine slot_deleteSecret_kept ?_
      rintro r hr rfl -
      unfold Db.secretOfDeleted
      rw [List.any_eq_false]
      intro g hm hp
      rw [Bool.and_eq_true, decide_eq_true_eq] at hp
      have hname : (g.name == name) = true := hp.1
      rw [hkeep n _ hg g hm hp.2] at hname
      cases hname
    exact (slot_congr rfl rfl gid s).trans hdel

namespace Dropped

variable {name : String}

variable (h : Dropped name db db')
include h

/-- 消した group の view だけが無くなる。 -/
theorem viewOf (n : String) :
    viewOf db' own n = if n = name then none else Store.viewOf db own n := by
  unfold Store.viewOf
  cases hg : groupId db' n with
  | none =>
    rw [h.groups] at hg
    split
    · rfl
    · next hn =>
      rw [if_neg hn] at hg
      rw [hg]
      rfl
  | some gid =>
    have hold := h.groups n
    rw [hg] at hold
    split
    · next hn =>
      rw [if_pos hn] at hold
      cases hold
    · next hn =>
      rw [if_neg hn] at hold
      rw [← hold]
      refine congrArg some (groupView_congr ?_ ?_ ?_ ?_)
      · intro e
        rw [mem_aclEntriesFull, mem_aclEntriesFull, h.identities]
        simp only [h.acl n gid hg ⟨_, gid, _⟩ rfl]
      · exact fun v b => h.wraps n gid hg _ rfl
      · exact fun s => (secretCurrent_of_slot (h.secrets n gid hg s)).1
      · exact fun s => (secretCurrent_of_slot (h.secrets n gid hg s)).2

theorem slotOf (group s : String) :
    slotOf db' group s = if group = name then (none, none) else Store.slotOf db group s := by
  cases hg : groupId db' group with
  | none =>
    rw [slotOf_absent hg]
    rw [h.groups] at hg
    split
    · rfl
    · next hn =>
      rw [if_neg hn] at hg
      rw [slotOf_absent hg]
  | some gid =>
    have hold := h.groups group
    rw [hg] at hold
    split
    · next hn =>
      rw [if_pos hn] at hold
      cases hold
    · next hn =>
      rw [if_neg hn] at hold
      rw [slotOf_eq hg, slotOf_eq hold.symm, h.secrets group gid hg]

theorem wrapOf {group : String} {v : Nat} {b : Bytes} (hw : wrapOf db' own group v = some b) :
    group ≠ name ∧ Store.wrapOf db own group v = some b := by
  obtain ⟨gid, hg, hm⟩ := wrapOf_eq_some.mp hw
  have hold := h.groups group
  rw [hg] at hold
  split at hold
  · cases hold
  · next hn => exact ⟨hn, wrapOf_eq_some.mpr ⟨gid, hold.symm, (h.wraps group gid hg _ rfl).mp hm⟩⟩

theorem wrapOf_other {group : String} (hne : group ≠ name) (v : Nat) :
    Store.wrapOf db' own group v = Store.wrapOf db own group v := by
  have hg : groupId db' group = groupId db group := (h.groups group).trans (if_neg hne)
  refine Option.ext fun b => ?_
  rw [wrapOf_eq_some, wrapOf_eq_some, hg]
  exact exists_congr fun gid => and_congr_right fun hgid => h.wraps group gid (hg.trans hgid) _ rfl

theorem clean {n : String} (hc : Clean db own n) : Clean db' own n := by
  intro gid hg
  have hold := h.groups n
  rw [hg] at hold
  split at hold
  · cases hold
  · obtain ⟨hw, hadm⟩ := hc gid hold.symm
    refine ⟨fun w hm hwg => hw w ((h.wraps n gid hg w hwg).mp hm) hwg, ?_⟩
    rw [h.identities]
    exact fun a ha hag => hadm a ((h.acl n gid hg a hag).mp ha) hag

end Dropped

/-! ## identity の掃除 -/

/-- 掃除の後には、ACL に現れる identity だけが残る。ACL は変わらない。 -/
theorem gc_spec (db : Db) :
    (∀ a, a ∈ (gcUnreferencedIdentities db).groupAcl ↔ a ∈ db.groupAcl) ∧
      ∀ i, i ∈ (gcUnreferencedIdentities db).identity ↔
        i ∈ db.identity ∧ ∃ a ∈ db.groupAcl, a.identityId = i.id := by
  constructor
  · intro a
    show a ∈ db.groupAcl.cascade _ _ _ _ ↔ _
    rw [Table.mem_cascade]
    refine and_iff_left_of_imp fun ha i _ hid => ?_
    rw [Bool.not_eq_false', List.any_eq_true]
    exact ⟨a, ha, beq_iff_eq.mpr hid.symm⟩
  · intro i
    show i ∈ db.identity.delete _ ↔ _
    rw [Table.mem_delete, Bool.not_eq_false', List.any_eq_true]
    simp only [beq_iff_eq]
    rfl

theorem gc_aclEntriesFull (db : Db) (gid : Nat) (e : String × String × UInt8) :
    e ∈ aclEntriesFull (gcUnreferencedIdentities db) gid ↔ e ∈ aclEntriesFull db gid := by
  obtain ⟨hacl, hids⟩ := gc_spec db
  rw [mem_aclEntriesFull, mem_aclEntriesFull]
  constructor
  · rintro ⟨i, hi, hn, he, ha⟩
    exact ⟨i, ((hids i).mp hi).1, hn, he, (hacl _).mp ha⟩
  · rintro ⟨i, hi, hn, he, ha⟩
    exact ⟨i, (hids i).mpr ⟨hi, _, ha, rfl⟩, hn, he, (hacl _).mpr ha⟩

theorem gc_viewOf (db : Db) (own name : String) :
    viewOf (gcUnreferencedIdentities db) own name = viewOf db own name := by
  unfold viewOf
  show (groupId db name).map _ = _
  cases groupId db name with
  | none => rfl
  | some gid =>
    exact congrArg some (groupView_congr (gc_aclEntriesFull db gid) (fun _ _ => Iff.rfl)
      (fun _ => rfl) fun _ => rfl)

theorem gc_clean {name : String} (h : Clean db own name) :
    Clean (gcUnreferencedIdentities db) own name := by
  obtain ⟨hacl, hids⟩ := gc_spec db
  intro gid hg
  obtain ⟨hw, hadm⟩ := h gid hg
  exact ⟨hw, fun a ha hag i hi => hadm a ((hacl a).mp ha) hag i ((hids i).mp hi).1⟩

end Store

end SecretBunker
