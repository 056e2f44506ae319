import SecretBunker.Node
import SecretBunker.Store.Keys

/-!
# 鍵の側の一歩

権威 node の操作が一つの group の reader、DEK の version、wrap をどう動かすかを
`KeyStep` の三通りにまとめる。鍵についての不変条件はすべてこの場合分けから出す。
-/

namespace SecretBunker

open Relational Store

variable {prim : Primitives} {db db' : Db}

/-! ## wrap の宛先 -/

/-- `dek_wrap.recipient` の宛先の、いまの recipient。 -/
def recipientOf (prim : Primitives) (db : Db) (r : String) : Option Recipient :=
  if r = recipientOperational then Node.recordedRecipient prim db "operational_pubkey"
  else if r = recipientBackup then Node.recordedRecipient prim db "backup_pubkey"
  else recipientForEndpointHex prim r

/-- `b` は宛先 `r` のいまの鍵に `dek` を包んだものである。 -/
def WrappedAs (prim : Primitives) (db : Db) (dek : Dek) (r : String) (b : Bytes) : Prop :=
  ∃ seed recipient, recipientOf prim db r = some recipient ∧ b = wrapDek prim seed dek recipient

/-- group の wrap を持つべき宛先。 -/
def Entitled (db : Db) (gid : Nat) (r : String) : Prop :=
  r = recipientOperational ∨ r = recipientBackup ∨ HoldsRead db r gid

/-- 登録された endpoint id は 64 文字である。 -/
def EndpointsHex (db : Db) : Prop := ∀ i ∈ db.identity, i.endpointId.length = 64

variable {e : String} {gid : Nat} {dek : Dek} {op backup : Recipient} {seed : String → Bytes}
  {target : Identity}

theorem ne_operational_of_length (h : e.length = 64) : e ≠ recipientOperational := by
  rintro rfl
  exact absurd h (by decide)

theorem ne_backup_of_length (h : e.length = 64) : e ≠ recipientBackup := by
  rintro rfl
  exact absurd h (by decide)

theorem recipientOf_endpoint (h : e.length = 64) :
    recipientOf prim db e = recipientForEndpointHex prim e := by
  unfold recipientOf
  rw [if_neg (ne_operational_of_length h), if_neg (ne_backup_of_length h)]

theorem length_of_holdsRead (hend : EndpointsHex db) (h : HoldsRead db e gid) : e.length = 64 := by
  obtain ⟨i, hi, rfl, -⟩ := h
  exact hend i hi

theorem WrappedAs.mono {r : String} {b : Bytes} (h : WrappedAs prim db dek r b)
    (hr : ∀ r, recipientOf prim db' r = recipientOf prim db r) : WrappedAs prim db' dek r b := by
  obtain ⟨seed, recipient, hrec, hb⟩ := h
  exact ⟨seed, recipient, (hr r).trans hrec, hb⟩

/-- 包まれた wrap を開いたときに出るのは、包んだ DEK だけである。 -/
theorem WrappedAs.eq_of_unwrap (laws : prim.Lawful) {dek' : Dek} {r : String} {b : Bytes}
    {i : AgeIdentity} (h : WrappedAs prim db dek r b) (hu : unwrapDek prim b i = some dek') :
    dek' = dek := by
  obtain ⟨seed, recipient, -, rfl⟩ := h
  exact eq_of_unwrapDek laws hu

/-! ## 作られる wrap の列 -/

/-- group の DEK の version 一つぶんの、過不足のない wrap の列。 -/
structure FullWraps (prim : Primitives) (db : Db) (gid : Nat) (dek : Dek)
    (wraps : List (String × Bytes)) : Prop where
  recipients : ∀ r, (∃ b, (r, b) ∈ wraps) ↔ Entitled db gid r
  wrapped : ∀ p ∈ wraps, WrappedAs prim db dek p.1 p.2

theorem mem_baseWraps {p : String × Bytes} :
    p ∈ Bunker.baseWraps prim op backup seed dek ↔
      p = (recipientOperational, wrapDek prim (seed recipientOperational) dek op) ∨
      p = (recipientBackup, wrapDek prim (seed recipientBackup) dek backup) := by
  simp [Bunker.baseWraps]

theorem wrapForReader_eq_some {p : String × Bytes}
    (h : Bunker.wrapForReader prim seed dek e = some p) :
    ∃ recipient, recipientForEndpointHex prim e = some recipient ∧
      p = (e, wrapDek prim (seed e) dek recipient) := by
  obtain ⟨recipient, hr, rfl⟩ := Option.map_eq_some_iff.mp h
  exact ⟨recipient, hr, rfl⟩

/-- operational と backup に、宛先の一つずつ合った wrap を足した列。 -/
theorem fullWraps_append {readers : List (String × Bytes)} (hend : EndpointsHex db)
    (hop : recipientOf prim db recipientOperational = some op)
    (hbackup : recipientOf prim db recipientBackup = some backup)
    (hreaders : ∀ r, (∃ b, (r, b) ∈ readers) ↔ HoldsRead db r gid)
    (hwrapped : ∀ p ∈ readers, ∃ recipient, recipientForEndpointHex prim p.1 = some recipient ∧
      p.2 = wrapDek prim (seed p.1) dek recipient) :
    FullWraps prim db gid dek (Bunker.baseWraps prim op backup seed dek ++ readers) where
  recipients := by
    intro r
    simp only [List.mem_append, exists_or, hreaders, mem_baseWraps, Prod.mk.injEq]
    constructor
    · rintro ((⟨_, hr, _⟩ | ⟨_, hr, _⟩) | h)
      · exact Or.inl hr
      · exact Or.inr (Or.inl hr)
      · exact Or.inr (Or.inr h)
    · rintro (rfl | rfl | h)
      · exact Or.inl (Or.inl ⟨_, rfl, rfl⟩)
      · exact Or.inl (Or.inr ⟨_, rfl, rfl⟩)
      · exact Or.inr h
  wrapped := by
    intro p hp
    rcases List.mem_append.mp hp with hp | hp
    · rcases mem_baseWraps.mp hp with rfl | rfl
      · exact ⟨_, _, hop, rfl⟩
      · exact ⟨_, _, hbackup, rfl⟩
    · obtain ⟨recipient, hrec, hb⟩ := hwrapped p hp
      have hlen := length_of_holdsRead hend ((hreaders p.1).mp ⟨p.2, hp⟩)
      exact ⟨_, recipient, (recipientOf_endpoint hlen).trans hrec, hb⟩

/-- wrap の一組は、二つの鍵と、除いた者のほかの reader である。 -/
theorem wrapSetForGroup_readers {exclude : Option String} {wraps : List (String × Bytes)}
    (h : Bunker.wrapSetForGroup prim op backup seed db gid dek exclude = some wraps) :
    ∃ readers, wraps = Bunker.baseWraps prim op backup seed dek ++ readers ∧
      (∀ r, (∃ b, (r, b) ∈ readers) ↔ HoldsRead db r gid ∧ some r ≠ exclude) ∧
      ∀ p ∈ readers, ∃ recipient, recipientForEndpointHex prim p.1 = some recipient ∧
        p.2 = wrapDek prim (seed p.1) dek recipient := by
  unfold Bunker.wrapSetForGroup at h
  obtain ⟨readers, hmap, h⟩ := Option.bind_eq_some_iff.mp h
  cases h
  refine ⟨readers, rfl, ?_, ?_⟩
  · intro r
    have hkeys : readers.map Prod.fst = _ := map_of_mapM (k := Prod.fst)
      (g := Identity.endpointId) (fun a b hab => by
        obtain ⟨_, _, rfl⟩ := wrapForReader_eq_some hab
        rfl) hmap
    have hmem : (∃ b, (r, b) ∈ readers) ↔ r ∈ readers.map Prod.fst := by
      simp [List.mem_map]
    rw [hmem, hkeys, holdsRead_iff_mem]
    simp only [List.mem_map, List.mem_filter, decide_eq_true_eq]
    constructor
    · rintro ⟨i, ⟨hi, hne⟩, rfl⟩
      exact ⟨⟨i, hi, rfl⟩, hne⟩
    · rintro ⟨⟨i, hi, rfl⟩, hne⟩
      exact ⟨i, ⟨hi, hne⟩, rfl⟩
  · intro p hp
    obtain ⟨i, -, hi⟩ := (mem_of_mapM hmap).mp hp
    obtain ⟨recipient, hrec, rfl⟩ := wrapForReader_eq_some hi
    exact ⟨recipient, hrec, rfl⟩

variable {wraps : List (Nat × Bytes)} {p : UInt8} {inner : Inner} {amb : Ambient}
  {rotations : List GroupRotation}

/-- 新しい reader の wrap は、どの version の DEK にもある。 -/
theorem wrapsForNewReader_spec {op : AgeIdentity} {seed : Nat → String → Bytes}
    (h : Bunker.wrapsForNewReader prim op seed db gid e = some wraps) :
    wraps.map Prod.fst = dekVersions db gid ∧
      ∀ p ∈ wraps, ∃ dek recipient, Bunker.unwrapOperational prim op db gid p.1 = some dek ∧
        recipientForEndpointHex prim e = some recipient ∧
        p.2 = wrapDek prim (seed p.1 e) dek recipient := by
  unfold Bunker.wrapsForNewReader at h
  obtain ⟨recipient, hrec, hmap⟩ := Option.bind_eq_some_iff.mp h
  have hone : ∀ v p, (do
      let dek ← Bunker.unwrapOperational prim op db gid v
      some (v, wrapDek prim (seed v e) dek recipient)) = some p →
      ∃ dek, Bunker.unwrapOperational prim op db gid v = some dek ∧
        p = (v, wrapDek prim (seed v e) dek recipient) := by
    intro v p hp
    obtain ⟨dek, hdek, hp⟩ := Option.bind_eq_some_iff.mp hp
    exact ⟨dek, hdek, (Option.some.inj hp).symm⟩
  constructor
  · rw [map_of_mapM (k := Prod.fst) (g := id) (fun v p hp => ?_) hmap, List.map_id]
    obtain ⟨_, _, rfl⟩ := hone v p hp
    rfl
  · intro p hp
    obtain ⟨v, -, hv⟩ := (mem_of_mapM hmap).mp hp
    obtain ⟨dek, hdek, rfl⟩ := hone v p hv
    exact ⟨dek, recipient, hdek, hrec, rfl⟩

/-- 新しい読み手に渡す wrap の version は重ならないので、`grantWithWraps_spec` が当てはまる。 -/
theorem granted_spec {op : AgeIdentity} {seed : Nat → String → Bytes} {iid : Nat}
    (hwraps : Bunker.wrapsForNewReader prim op seed db gid e = some wraps)
    (h : grantWithWraps db iid gid p wraps e = some db') :
    ∃ mid t hw, AclSet db mid iid gid p ∧ db' = mid.withWraps t hw ∧
      ∀ w, w ∈ t ↔
        (w ∈ db.dekWrap ∧
          ¬ (w.groupId = gid ∧ w.dekVersion ∈ wraps.map Prod.fst ∧ w.recipient = e)) ∨
        ∃ q ∈ wraps, w = ⟨gid, q.1, e, q.2⟩ :=
  grantWithWraps_spec ((wrapsForNewReader_spec hwraps).1 ▸ dekVersions_nodup db gid) h

/-! ## group 一つの一歩 -/

/-- 操作一つの間の、group 一つの鍵の動き。 -/
inductive KeyStep (prim : Primitives) (db db' : Db) (gid : Nat) : Prop
  /-- reader も鍵も動かない。 -/
  | keep (readers : ∀ e, HoldsRead db' e gid ↔ HoldsRead db e gid)
      (versions : ∀ v, ⟨gid, v⟩ ∈ db'.groupDek ↔ ⟨gid, v⟩ ∈ db.groupDek)
      (wraps : ∀ w, w.groupId = gid → (w ∈ db'.dekWrap ↔ w ∈ db.dekWrap))
  /-- `e` が READ を得て、残っている version すべての wrap を受け取る。 -/
  | gain (e : String) (new : List (Nat × Bytes)) (length : e.length = 64)
      (absent : ¬ HoldsRead db e gid)
      (readers : ∀ e', HoldsRead db' e' gid ↔ HoldsRead db e' gid ∨ e' = e)
      (versions : ∀ v, ⟨gid, v⟩ ∈ db'.groupDek ↔ ⟨gid, v⟩ ∈ db.groupDek)
      (wraps : ∀ w, w.groupId = gid → (w ∈ db'.dekWrap ↔
        (w ∈ db.dekWrap ∧ ¬ (⟨gid, w.dekVersion⟩ ∈ db.groupDek ∧ w.recipient = e)) ∨
        ∃ p ∈ new, w = ⟨gid, p.1, e, p.2⟩))
      (covers : ∀ v, (∃ b, (v, b) ∈ new) ↔ ⟨gid, v⟩ ∈ db.groupDek)
      (opened : ∀ p ∈ new, ∃ op dek, Bunker.unwrapOperational prim op db gid p.1 = some dek ∧
        WrappedAs prim db' dek e p.2)
  /-- `lost` が READ を失うなどして、新しい version が残る宛先すべてに包まれる。 -/
  | rotate (lost : Option String) (v : Nat) (dek : Dek) (new : List (String × Bytes))
      (held : ∀ e, lost = some e → HoldsRead db e gid ∧ ¬ HoldsRead db' e gid)
      (readers : ∀ u, ⟨gid, u⟩ ∈ db.groupDek →
        ∀ e, HoldsRead db' e gid ↔ HoldsRead db e gid ∧ some e ≠ lost)
      (newest : ∀ u, ⟨gid, u⟩ ∈ db.groupDek → u < v)
      (versions : ∀ u, ⟨gid, u⟩ ∈ db'.groupDek ↔ ⟨gid, u⟩ ∈ db.groupDek ∨ u = v)
      (wraps : ∀ w, w.groupId = gid → (w ∈ db'.dekWrap ↔
        (w ∈ db.dekWrap ∧ some w.recipient ≠ lost) ∨ ∃ p ∈ new, w = ⟨gid, v, p.1, p.2⟩))
      (full : FullWraps prim db' gid dek new)

/-- operational key を変えない操作一つの、鍵の側の効果。 -/
structure Turn (prim : Primitives) (db db' : Db) : Prop where
  recipients : ∀ r, recipientOf prim db' r = recipientOf prim db r
  keys : ∀ gid, KeyStep prim db db' gid
  endpoints : EndpointsHex db'
  groups : ∀ g ∈ db.secretGroup, g ∈ db'.secretGroup
  keyed : ∀ g ∈ db'.secretGroup, g ∈ db.secretGroup ∨ ∃ v, ⟨g.id, v⟩ ∈ db'.groupDek

theorem recipientOf_congr (h : db'.metadata = db.metadata) (r : String) :
    recipientOf prim db' r = recipientOf prim db r := by
  unfold recipientOf Node.recordedRecipient metaGet
  rw [h]

/-- ACL も鍵の表も変わらない操作。 -/
theorem Turn.of_keep (hm : db'.metadata = db.metadata)
    (hr : ∀ e gid, HoldsRead db' e gid ↔ HoldsRead db e gid) (hd : db'.groupDek = db.groupDek)
    (hw : db'.dekWrap = db.dekWrap) (hend : EndpointsHex db')
    (hg : db'.secretGroup = db.secretGroup) : Turn prim db db' where
  recipients := recipientOf_congr hm
  keys := fun gid => .keep (fun e => hr e gid) (fun v => by rw [hd]) (fun w _ => by rw [hw])
  endpoints := hend
  groups := fun g h => hg ▸ h
  keyed := fun g h => Or.inl (hg ▸ h)

theorem Turn.refl (hend : EndpointsHex db) : Turn prim db db :=
  .of_keep rfl (fun _ _ => Iff.rfl) rfl rfl hend rfl

theorem Turn.audit (h : Turn prim db db') (log : List AuditRow) :
    Turn prim db (db'.withAudit log) where
  recipients := h.recipients
  keys := fun gid => by
    cases h.keys gid with
    | keep readers versions wraps => exact .keep readers versions wraps
    | gain e new length absent readers versions wraps covers opened =>
      exact .gain e new length absent readers versions wraps covers opened
    | rotate lost v dek new held readers newest versions wraps full =>
      exact .rotate lost v dek new held readers newest versions wraps ⟨full.recipients, full.wrapped⟩
  endpoints := h.endpoints
  groups := h.groups
  keyed := h.keyed

/-! ## 書き込みごとの一歩 -/

theorem Turn.of_aclSet (hend : EndpointsHex db) (ht : target ∈ db.identity)
    (h : AclSet db db' target.id gid p)
    (hsame : hasBit p permRead = hasBit (perms db target.id gid) permRead) : Turn prim db db' := by
  have hr := h.holdsRead ht
  obtain ⟨t, hi, hg, rfl, -⟩ := h
  refine .of_keep rfl (fun e g => ?_) rfl rfl hend rfl
  rw [hr]
  by_cases he : e = target.endpointId ∧ g = gid
  · obtain ⟨rfl, rfl⟩ := he
    rw [if_pos ⟨rfl, rfl⟩, hsame, holdsRead_of_mem ht]
  · rw [if_neg he]

/-- READ を与える一歩。 -/
theorem Turn.of_grant {op : AgeIdentity} {seed : Nat → String → Bytes} (hend : EndpointsHex db)
    (ht : target ∈ db.identity) (hold : hasBit (perms db target.id gid) permRead = false)
    (hnew : hasBit p permRead = true)
    (hwraps : Bunker.wrapsForNewReader prim op seed db gid target.endpointId = some wraps)
    (h : grantWithWraps db target.id gid p wraps target.endpointId = some db') :
    Turn prim db db' := by
  obtain ⟨hkeys, hopen⟩ := wrapsForNewReader_spec hwraps
  obtain ⟨mid, t, hw, hset, rfl, hmem⟩ := granted_spec hwraps h
  have hr := hset.holdsRead ht
  obtain ⟨ta, hi, hg, rfl, -⟩ := hset
  have hcov : ∀ v, v ∈ wraps.map Prod.fst ↔ ⟨gid, v⟩ ∈ db.groupDek := fun v => by
    rw [hkeys, mem_dekVersions]
  refine ⟨recipientOf_congr rfl, fun g => ?_, hend, fun _ h => h, fun _ h => Or.inl h⟩
  by_cases hgg : g = gid
  · subst hgg
    refine .gain target.endpointId wraps (hend target ht) ?_ (fun e => ?_) (fun v => Iff.rfl)
      (fun w hwg => ?_) (fun v => ?_) (fun q hq => ?_)
    · rw [holdsRead_of_mem ht, hold]
      exact Bool.false_ne_true
    · show HoldsRead (db.withAcl ta hi hg) e g ↔ _
      rw [hr]
      by_cases he : e = target.endpointId
      · rw [if_pos ⟨he, rfl⟩]
        exact iff_of_true hnew (Or.inr he)
      · rw [if_neg fun hc => he hc.1, or_iff_left he]
    · show w ∈ t ↔ _
      rw [hmem, hcov]
      simp only [hwg, true_and]
    · rw [← hcov]
      simp
    · obtain ⟨dek, recipient, hu, hrec, hb⟩ := hopen q hq
      exact ⟨op, dek, hu, _, recipient, (recipientOf_endpoint (hend target ht)).trans hrec, hb⟩
  · refine .keep (fun e => ?_) (fun v => Iff.rfl) (fun w hwg => ?_)
    · show HoldsRead (db.withAcl ta hi hg) e g ↔ _
      rw [hr, if_neg fun hc => hgg hc.2]
    · show w ∈ t ↔ _
      rw [hmem]
      constructor
      · rintro (⟨hm, -⟩ | ⟨q, -, rfl⟩)
        · exact hm
        · exact absurd hwg.symm hgg
      · intro hm
        exact Or.inl ⟨hm, fun hc => hgg (hwg.symm.trans hc.1)⟩

/-- 前の database の reader から作った wrap の列は、`lost` が抜けた後の宛先にちょうど合う。 -/
theorem fullWraps_of_wrapSet {lost : Option String} {wraps : List (String × Bytes)}
    (hend : EndpointsHex db') (hop : recipientOf prim db' recipientOperational = some op)
    (hbackup : recipientOf prim db' recipientBackup = some backup)
    (hr : ∀ e, HoldsRead db' e gid ↔ HoldsRead db e gid ∧ some e ≠ lost)
    (h : Bunker.wrapSetForGroup prim op backup seed db gid dek lost = some wraps) :
    FullWraps prim db' gid dek wraps := by
  obtain ⟨readers, rfl, hreaders, hwrapped⟩ := wrapSetForGroup_readers h
  exact fullWraps_append hend hop hbackup (fun r => (hreaders r).trans (hr r).symm) hwrapped

section Rotations

variable {op backup : Recipient} {dek : Dek} {gid : Nat}

/-- `e` の READ を外した後に、読めていた group をすべて回した database の、group 一つの動き。 -/
theorem KeyStep.of_rotatedAll {mid : Db} {rotations : List GroupRotation} (e : String)
    (h : RotatedAll mid db' rotations) (hdek : mid.groupDek = db.groupDek)
    (hwrap : mid.dekWrap = db.dekWrap) (hnd : (rotations.map Prod.fst).Nodup)
    (hheld : ∀ rot ∈ rotations, HoldsRead db e rot.1)
    (hread : ∀ rot ∈ rotations, ∀ e', HoldsRead db' e' rot.1 ↔
      HoldsRead db e' rot.1 ∧ some e' ≠ some e)
    (hkeep : ∀ g, g ∉ rotations.map Prod.fst → ∀ e', HoldsRead db' e' g ↔ HoldsRead db e' g)
    (hfull : ∀ rot ∈ rotations, rot.2.1 = e ∧ ∃ dek, FullWraps prim db' rot.1 dek rot.2.2)
    (g : Nat) : KeyStep prim db db' g := by
  obtain ⟨td, hd, tw, hw, rfl, htd, htw⟩ := h
  rw [hdek] at htd
  rw [hwrap] at htw
  by_cases hg : g ∈ rotations.map Prod.fst
  · obtain ⟨rot, hmem, rfl⟩ := List.mem_map.mp hg
    obtain ⟨hrec, dek, hwraps⟩ := hfull rot hmem
    -- この group の回転は一つだけである
    have huniq : ∀ rot' ∈ rotations, rot'.1 = rot.1 → rot' = rot := fun rot' hm' he =>
      List.inj_on_of_nodup_map hnd hm' hmem he
    refine .rotate (some e) (nextDekVersion mid rot.1) dek rot.2.2 ?_ (fun _ _ => hread rot hmem)
      (fun u hu => lt_nextDekVersion (hdek ▸ hu)) (fun u => ?_) (fun w hwg => ?_) hwraps
    · intro e' he
      cases he
      exact ⟨hheld rot hmem, fun hc => ((hread rot hmem _).mp hc).2 rfl⟩
    · refine (htd _).trans (or_congr_right ⟨?_, ?_⟩)
      · rintro ⟨rot', hm', he⟩
        obtain ⟨hg', hv⟩ := DekRow.mk.inj he
        rw [hv, huniq rot' hm' hg'.symm]
      · rintro rfl
        exact ⟨rot, hmem, rfl⟩
    · rw [ne_eq, Option.some.injEq]
      refine (htw w).trans (or_congr (and_congr_right fun _ => ⟨?_, ?_⟩) ⟨?_, ?_⟩)
      · intro hall hc
        exact hall rot hmem ⟨hwg, hc.trans hrec.symm⟩
      · intro hne rot' hm' hc
        exact hne (hc.2.trans (hfull rot' hm').1)
      · rintro ⟨rot', hm', q, hq, rfl⟩
        obtain rfl := huniq rot' hm' hwg
        exact ⟨q, hq, rfl⟩
      · rintro ⟨q, hq, rfl⟩
        exact ⟨rot, hmem, q, hq, rfl⟩
  · refine .keep (hkeep g hg) (fun v => ?_) (fun w hwg => ?_)
    · refine (htd _).trans (or_iff_left ?_)
      rintro ⟨rot, hm, he⟩
      exact hg (List.mem_map.mpr ⟨rot, hm, (DekRow.mk.inj he).1.symm⟩)
    · refine (htw w).trans ⟨?_, fun hm => Or.inl ⟨hm, fun rot hrm hc => ?_⟩⟩
      · rintro (⟨hm, -⟩ | ⟨rot, hm, q, -, rfl⟩)
        · exact hm
        · exact absurd (List.mem_map.mpr ⟨rot, hm, hwg⟩) hg
      · exact hg (List.mem_map.mpr ⟨rot, hrm, hc.1.symm.trans hwg⟩)

variable {wraps : List (String × Bytes)} {seed : String → Bytes}

/-- 誰の READ も外さずに version を足した database の、group 一つの動き。 -/
theorem KeyStep.of_dekAdded {before after : Db} {v : Nat} (h : DekAdded before after gid v wraps)
    (hdek : before.groupDek = db.groupDek) (hwrap : before.dekWrap = db.dekWrap)
    (hdek' : db'.groupDek = after.groupDek) (hwrap' : db'.dekWrap = after.dekWrap)
    (hread : ∀ u, ⟨gid, u⟩ ∈ db.groupDek → ∀ e, HoldsRead db' e gid ↔ HoldsRead db e gid)
    (hkeep : ∀ g, g ≠ gid → ∀ e, HoldsRead db' e g ↔ HoldsRead db e g)
    (hnewest : ∀ u, ⟨gid, u⟩ ∈ db.groupDek → u < v) (hfull : FullWraps prim db' gid dek wraps)
    (g : Nat) : KeyStep prim db db' g := by
  obtain ⟨td, hd, tw, hw, rfl, htd, htw⟩ := h
  rw [hdek] at htd
  rw [hwrap] at htw
  have hdeks : ∀ d, d ∈ db'.groupDek ↔ d ∈ db.groupDek ∨ d = ⟨gid, v⟩ := fun d => hdek' ▸ htd d
  have hwraps : ∀ w, w ∈ db'.dekWrap ↔ w ∈ db.dekWrap ∨ ∃ q ∈ wraps, w = ⟨gid, v, q.1, q.2⟩ :=
    fun w => hwrap' ▸ htw w
  by_cases hg : g = gid
  · subst hg
    refine .rotate none v dek wraps (fun e he => nomatch he) (fun u hu e => ?_) hnewest
      (fun u => ?_) (fun w _ => ?_) hfull
    · rw [hread u hu, and_iff_left (Option.some_ne_none e)]
    · rw [hdeks, DekRow.mk.injEq, eq_self_iff_true, true_and]
    · rw [hwraps, and_iff_left (Option.some_ne_none _)]
  · refine .keep (hkeep g hg) (fun u => ?_) (fun w hwg => ?_)
    · rw [hdeks, DekRow.mk.injEq]
      exact or_iff_left fun hc => hg hc.1
    · rw [hwraps]
      refine or_iff_left ?_
      rintro ⟨q, -, rfl⟩
      exact hg hwg.symm

/-- READ を取り上げる一歩。 -/
theorem Turn.of_revoke {target : Identity} {n : Nat} {p : UInt8} (hend : EndpointsHex db)
    (ht : target ∈ db.identity) (hop : recipientOf prim db recipientOperational = some op)
    (hbackup : recipientOf prim db recipientBackup = some backup)
    (hold : hasBit (perms db target.id gid) permRead = true) (hnew : hasBit p permRead = false)
    (hwraps : Bunker.wrapSetForGroup prim op backup seed db gid dek (some target.endpointId) =
      some wraps)
    (h : revokeReadAndRotate db gid target.id p target.endpointId wraps = some (n, db')) :
    Turn prim db db' := by
  obtain ⟨mid, hset, rfl, hrot⟩ := revokeReadAndRotate_spec h
  have hr := hset.holdsRead ht
  obtain ⟨ta, hi, hg, rfl, -⟩ := hset
  have hall : RotatedAll _ db' [(gid, target.endpointId, wraps)] := hrot.rotatedAll
  obtain ⟨td, hd, tw, hw, rfl, -⟩ := hrot
  have hread : ∀ e, HoldsRead (db.withAcl ta hi hg) e gid ↔
      HoldsRead db e gid ∧ some e ≠ some target.endpointId := by
    intro e
    rw [hr, ne_eq, Option.some.injEq]
    by_cases he : e = target.endpointId
    · rw [if_pos ⟨he, rfl⟩, hnew]
      exact iff_of_false Bool.false_ne_true fun hc => hc.2 he
    · rw [if_neg fun hc => he hc.1, and_iff_left he]
  refine ⟨recipientOf_congr rfl, KeyStep.of_rotatedAll target.endpointId hall rfl rfl
    (List.nodup_singleton _) ?_ ?_ (fun g hne e => ?_) ?_, hend, fun _ h => h, fun _ h => Or.inl h⟩
  · rintro rot hm
    cases List.mem_singleton.mp hm
    exact (holdsRead_of_mem ht).mpr hold
  · rintro rot hm
    cases List.mem_singleton.mp hm
    exact hread
  · exact (hr e g).trans (iff_of_eq (if_neg fun hc => hne (List.mem_singleton.mpr hc.2)))
  · rintro rot hm
    cases List.mem_singleton.mp hm
    exact ⟨rfl, dek, fullWraps_of_wrapSet hend ((recipientOf_congr rfl _).trans hop)
      ((recipientOf_congr rfl _).trans hbackup) hread hwraps⟩

theorem Turn.of_addDek {n : Nat} (hend : EndpointsHex db)
    (hop : recipientOf prim db recipientOperational = some op)
    (hbackup : recipientOf prim db recipientBackup = some backup)
    (hwraps : Bunker.wrapSetForGroup prim op backup seed db gid dek none = some wraps)
    (h : addDek db gid wraps = some (n, db')) : Turn prim db db' := by
  obtain ⟨rfl, hadd⟩ := dekAdded_addDek h
  have hkeys := @KeyStep.of_dekAdded prim db db' dek gid _ _ _ _ hadd rfl rfl rfl rfl
  obtain ⟨td, hd, tw, hw, rfl, -⟩ := hadd
  refine ⟨recipientOf_congr rfl, hkeys (fun _ _ _ => Iff.rfl) (fun _ _ _ => Iff.rfl)
    (fun u hu => lt_nextDekVersion hu) ?_, hend, fun _ h => h, fun _ h => Or.inl h⟩
  exact fullWraps_of_wrapSet hend ((recipientOf_congr rfl _).trans hop)
    ((recipientOf_congr rfl _).trans hbackup)
    (fun e => (and_iff_left (Option.some_ne_none e)).symm) hwraps

/-- group を作る一歩。 -/
theorem Turn.of_createGroup {ident : Identity} {name : String} {p : UInt8}
    {creator : String × Bytes} (hend : EndpointsHex db) (hident : ident ∈ db.identity)
    (hop : recipientOf prim db recipientOperational = some op)
    (hbackup : recipientOf prim db recipientBackup = some backup) (hp : hasBit p permRead = true)
    (hcreator : Bunker.wrapForReader prim seed dek ident.endpointId = some creator)
    (h : createGroup db name (Bunker.baseWraps prim op backup seed dek ++ [creator]) ident.id p =
      some db') : Turn prim db db' := by
  have hp0 : p ≠ 0 := by
    rintro rfl
    exact absurd hp (by decide)
  obtain ⟨gid, t, hg, mid, hnew, ht, hadd, hset⟩ := createGroup_spec hp0 h
  have hkeys := fun hdek' hwrap' =>
    @KeyStep.of_dekAdded prim db db' dek gid _ _ _ _ hadd rfl rfl hdek' hwrap'
  obtain ⟨td, hd, tw, hw, rfl, htd, -⟩ := hadd
  have hr := hset.holdsRead hident
  obtain ⟨ta, hi, hga, rfl, -⟩ := hset
  obtain ⟨recipient, hrec, rfl⟩ := wrapForReader_eq_some hcreator
  have hnone : ∀ e, ¬ HoldsRead db e gid := by
    intro e he
    obtain ⟨g, hgm, hgid⟩ := group_of_holdsRead he
    exact (hnew g hgm).1 hgid
  have hnodek : ∀ v, (⟨gid, v⟩ : DekRow) ∉ db.groupDek := by
    intro v hv
    obtain ⟨g, hgm, hgid⟩ := db.dekGroup _ hv
    exact (hnew g hgm).1 hgid
  refine ⟨recipientOf_congr rfl, hkeys rfl rfl (fun u hu => absurd hu (hnodek u))
    (fun g hne e => ?_) (fun u hu => absurd hu (hnodek u))
    (fullWraps_append hend ((recipientOf_congr rfl _).trans hop)
      ((recipientOf_congr rfl _).trans hbackup) (fun r => ?_) fun q hq => ?_), hend, hg,
    fun g hgm => ?_⟩
  · rw [hr, if_neg fun hc => hne hc.2]
    rfl
  · rw [hr]
    by_cases he : r = ident.endpointId
    · rw [if_pos ⟨he, rfl⟩]
      exact iff_of_true ⟨_, by rw [he]; exact List.mem_singleton_self _⟩ hp
    · rw [if_neg fun hc => he hc.1]
      refine iff_of_false ?_ (hnone r)
      rintro ⟨b, hb⟩
      exact he (congrArg Prod.fst (List.mem_singleton.mp hb))
  · cases List.mem_singleton.mp hq
    exact ⟨recipient, hrec, rfl⟩
  · rcases (ht g).mp hgm with hgm | rfl
    · exact Or.inl hgm
    · exact Or.inr ⟨1, (htd _).mpr (Or.inr rfl)⟩

end Rotations

/-! ## identity の削除 -/

theorem mem_groupsWithRead {iid : Nat} :
    gid ∈ groupsWithRead db iid ↔ hasBit (perms db iid gid) permRead = true := by
  unfold groupsWithRead
  simp only [mem_sortOn, List.mem_map, List.mem_filter, Bool.and_eq_true, beq_iff_eq, hasBit_perms]
  constructor
  · rintro ⟨a, ⟨ha, hi, hb⟩, hg⟩
    exact ⟨a, ha, hi, hg, hb⟩
  · rintro ⟨a, ha, hi, hg, hb⟩
    exact ⟨a, ⟨ha, hi, hb⟩, hg⟩

theorem removalRotations_spec
    (h : Bunker.removalRotations prim inner amb db target = some rotations) :
    rotations.map Prod.fst = groupsWithRead db target.id ∧
      ∀ rot ∈ rotations, rot.2.1 = target.endpointId ∧ ∃ seed dek,
        Bunker.wrapSetForGroup prim inner.opRecipient inner.backupRecipient seed db rot.1 dek
          (some target.endpointId) = some rot.2.2 := by
  unfold Bunker.removalRotations at h
  constructor
  · rw [map_of_mapM (k := Prod.fst) (g := Prod.fst) (fun g rot hrot => ?_) h, List.zipIdx_map_fst]
    obtain ⟨wraps, -, rfl⟩ := Option.map_eq_some_iff.mp hrot
    rfl
  · intro rot hrot
    obtain ⟨g, -, hg⟩ := (mem_of_mapM h).mp hrot
    obtain ⟨wraps, hwraps, rfl⟩ := Option.map_eq_some_iff.mp hg
    exact ⟨rfl, _, _, hwraps⟩

/-- 消せたなら、identity を消してから、READ のあった group をすべて回している。 -/
theorem removed_rotates {name : String}
    (hrots : Bunker.removalRotations prim inner amb db target = some rotations)
    (h : removeIdentityWithRotations db name rotations = some (true, db')) :
    RotatedAll (db.deleteIdentity (·.name == name)) db' rotations := by
  have hnd := (removalRotations_spec hrots).1 ▸ groupsWithRead_nodup db target.id
  rcases removeIdentityWithRotations_spec hnd h with ⟨hb, -⟩ | ⟨-, hall⟩
  · cases hb
  · exact hall

/-- identity を消す一歩。 -/
theorem Turn.of_remove (hend : EndpointsHex db) (ht : target ∈ db.identity)
    (hop : recipientOf prim db recipientOperational = some inner.opRecipient)
    (hbackup : recipientOf prim db recipientBackup = some inner.backupRecipient)
    (hrots : Bunker.removalRotations prim inner amb db target = some rotations)
    (h : RotatedAll (db.deleteIdentity (·.name == target.name)) db' rotations) :
    Turn prim db db' := by
  obtain ⟨hkeys, hrot⟩ := removalRotations_spec hrots
  have hnd : (rotations.map Prod.fst).Nodup := hkeys ▸ groupsWithRead_nodup db target.id
  have hheld : ∀ g, g ∈ rotations.map Prod.fst ↔ HoldsRead db target.endpointId g := fun g => by
    rw [hkeys, mem_groupsWithRead, holdsRead_of_mem ht]
  have hstep := @KeyStep.of_rotatedAll prim db db' _ _ target.endpointId h rfl rfl hnd
  have hr := holdsRead_deleteIdentity ht
  obtain ⟨td, hd, tw, hw, rfl, -⟩ := h
  have hend' : EndpointsHex (db.deleteIdentity (·.name == target.name)) :=
    fun i hi => hend i (Table.mem_delete.mp hi).1
  have hread : ∀ g e, HoldsRead (db.deleteIdentity (·.name == target.name)) e g ↔
      HoldsRead db e g ∧ some e ≠ some target.endpointId := by
    intro g e
    rw [hr, ne_eq, ne_eq, Option.some.injEq]
  refine ⟨recipientOf_congr rfl, hstep (fun rot hm => (hheld _).mp (List.mem_map_of_mem hm))
    (fun rot _ => hread rot.1) (fun g hg e => (hread g e).trans ?_) (fun rot hm => ?_), hend',
    fun _ h => h, fun _ h => Or.inl h⟩
  · refine and_iff_left_of_imp fun he hc => hg ((hheld g).mpr ?_)
    exact Option.some.inj hc ▸ he
  · obtain ⟨hrec, seed, dek, hwraps⟩ := hrot rot hm
    exact ⟨hrec, dek, fullWraps_of_wrapSet hend' ((recipientOf_congr rfl _).trans hop)
      ((recipientOf_congr rfl _).trans hbackup) (hread rot.1) hwraps⟩

end SecretBunker
