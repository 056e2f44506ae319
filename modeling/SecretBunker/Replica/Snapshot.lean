import SecretBunker.Replica.Outline
import SecretBunker.Server.Announce
import SecretBunker.Server.Refinement

/-!
# 上流の snapshot を写した mirror

上流の今の状態の snapshot を、今の行とともに写すと、mirror の group の見え方は上流のものになる。
取り寄せない行は手元の行を使うので、`(version, dek_version, nonce)` の同じ行が同じ暗号文を持つことに依る。
-/

namespace SecretBunker

open Relational Store SyncServer

variable {prim : Primitives} {up mirror db : Db} {own g : String} {gid : Nat}

/-- replica に渡せる上流：鍵と行が揃い、どの現在の行の DEK も登録されている。 -/
structure Servable (prim : Primitives) (up : Db) : Prop extends Consistent prim up where
  registered : ∀ {gid name row}, secretDataCurrent up gid name = some row →
    ⟨gid, row.dekVersion⟩ ∈ up.groupDek

/-- 平文の写像を暗号化した database は、replica に渡せる。 -/
theorem servable_of_simulates {m : Reference.Map} (hc : Consistent prim up)
    (h : Simulates prim up m) : Servable prim up := by
  refine ⟨hc, fun {gid name row} hrow => ?_⟩
  obtain ⟨r, hr, hid⟩ := group_of_secretDataCurrent hrow
  have hg : groupId up r.name = some gid := groupId_eq_some.mpr (hid ▸ hr)
  rcases h.present r.name gid hg name with ⟨hnone, -⟩ | ⟨row', value, hrow', -, hsealed⟩
  · rw [hrow] at hnone
    cases hnone
  · rw [hrow] at hrow'
    cases hrow'
    exact hsealed.registered

/-- `init` から操作を重ねた database は、replica に渡せる。 -/
theorem servable_exec (laws : prim.Lawful) {op backup endpoint name : String} {db₀ : Db}
    (hlen : endpoint.length = 64) (hinit : Node.init op backup endpoint name = some db₀)
    (ops : List (Node.Op × Ambient)) : Servable prim (Node.exec prim db₀ ops) := by
  obtain ⟨m, hm⟩ := simulates_some laws hlen hinit ops
  exact servable_of_simulates (consistent_exec laws (consistent_init hlen hinit) ops) hm

/-! ## snapshot の中身 -/

theorem acl_snapshot (up : Db) (gid : Nat) (g own : String) :
    effectiveAcl (snapshotGroup up gid g own).acl = (snapshotGroup up gid g own).acl := by
  have hinj : ∀ f : Identity → String, (∀ i j : Identity, f i = f j → Row.Conflict i j) →
      ∀ key : String × String × UInt8 → String,
        (∀ e ∈ aclEntriesFull up gid, ∃ i ∈ up.identity, key e = f i ∧ e.1 = i.name) →
        ((aclEntriesFull up gid).map key).Nodup := by
    intro f hf key hkey
    refine List.Nodup.map_on ?_ (List.Nodup.of_map _ (aclEntriesFull_nodup up gid))
    intro a ha b hb he
    obtain ⟨i, hi, hki, hni⟩ := hkey a ha
    obtain ⟨j, hj, hkj, hnj⟩ := hkey b hb
    obtain rfl := Table.eq_of_conflict hi hj (hf i j (hki.symm.trans (he.trans hkj)))
    exact List.inj_on_of_nodup_map (aclEntriesFull_nodup up gid) ha hb (hni.trans hnj.symm)
  have hmem : ∀ e ∈ aclEntriesFull up gid, ∃ i ∈ up.identity, e.1 = i.name ∧ e.2.1 = i.endpointId := by
    intro e he
    obtain ⟨i, hi, hn, hep, -⟩ := mem_aclEntriesFull.mp he
    exact ⟨i, hi, hn.symm, hep.symm⟩
  refine effectiveAcl_of_nodup ?_ ?_
  · show (((aclEntriesFull up gid).map _).map _).Nodup
    rw [List.map_map]
    exact hinj (·.name) (fun _ _ h => Or.inr (Or.inr h)) (·.1) fun e he => by
      obtain ⟨i, hi, hn, -⟩ := hmem e he
      exact ⟨i, hi, hn, hn⟩
  · show (((aclEntriesFull up gid).map _).map _).Nodup
    rw [List.map_map]
    exact hinj (·.endpointId) (fun _ _ h => Or.inr (Or.inl h)) (·.2.1) fun e he => by
      obtain ⟨i, hi, hn, hep⟩ := hmem e he
      exact ⟨i, hi, hep, hn⟩

theorem mem_acl_snapshot {e : String × String × UInt8} :
    ⟨e.1, e.2.1, e.2.2⟩ ∈ effectiveAcl (snapshotGroup up gid g own).acl ↔
      e ∈ aclEntriesFull up gid := by
  rw [acl_snapshot]
  show _ ∈ (aclEntriesFull up gid).map _ ↔ _
  rw [List.mem_map]
  constructor
  · rintro ⟨x, hx, he⟩
    obtain ⟨h₁, h₂, h₃⟩ := AclEntry.mk.inj he
    rw [show e = x from Prod.ext h₁.symm (Prod.ext h₂.symm h₃.symm)]
    exact hx
  · exact fun he => ⟨e, he, rfl⟩

/-- 同じ database から読んだ ACL どうしは、名前と endpoint の対応が食い違わない。 -/
theorem agrees_snapshot {gid' : Nat} {e : String × String × UInt8}
    (he : e ∈ aclEntriesFull up gid') :
    Agrees (effectiveAcl (snapshotGroup up gid g own).acl) e.1 e.2.1 := by
  intro x hx
  obtain ⟨i, hi, hin, hie, -⟩ := mem_aclEntriesFull.mp
    (mem_acl_snapshot (e := (x.identityName, x.endpointId, x.perms)).mp hx)
  obtain ⟨j, hj, hjn, hje, -⟩ := mem_aclEntriesFull.mp he
  change i.name = x.identityName at hin
  change i.endpointId = x.endpointId at hie
  rw [← hin, ← hie, ← hjn, ← hje]
  constructor
  · intro h
    rw [Table.eq_of_conflict hi hj (Or.inr (Or.inr h))]
  · intro h
    rw [Table.eq_of_conflict hi hj (Or.inr (Or.inl h))]

theorem mem_deks_snapshot {v : Nat} {b : Bytes} :
    ⟨v, b⟩ ∈ (snapshotGroup up gid g own).deks ↔
      ⟨gid, v⟩ ∈ up.groupDek ∧ ⟨gid, v, own, b⟩ ∈ up.dekWrap := by
  show _ ∈ (dekVersions up gid).filterMap _ ↔ _
  simp only [List.mem_filterMap, mem_dekVersions, Option.map_eq_some_iff, dekWrap_eq_some]
  constructor
  · rintro ⟨v', hv, b', hb, he⟩
    cases he
    exact ⟨hv, hb⟩
  · rintro ⟨hv, hb⟩
    exact ⟨v, hv, b, hb, rfl⟩

/-- snapshot の wrap は、上流にある自分宛ての wrap である。 -/
theorem latestDek_snapshot (hk : KeyWrap prim up) {v : Nat} {b : Bytes} :
    latestDek (snapshotGroup up gid g own).deks v = some b ↔ ⟨gid, v, own, b⟩ ∈ up.dekWrap := by
  constructor
  · exact fun h => (mem_deks_snapshot.mp (latestDek_eq_some h)).2
  · intro h
    have hmem := mem_deks_snapshot (g := g).mpr ⟨hk.registered _ h, h⟩
    cases hl : latestDek (snapshotGroup up gid g own).deks v with
    | none => exact absurd rfl (latestDek_eq_none.mp hl _ hmem)
    | some b' =>
      have h' := (mem_deks_snapshot.mp (latestDek_eq_some hl)).2
      have hrow : (⟨gid, v, own, b'⟩ : WrapRow) = ⟨gid, v, own, b⟩ :=
        Table.eq_of_conflict h' h ⟨rfl, rfl, rfl⟩
      rw [(WrapRow.mk.inj hrow).2.2.2]

theorem mem_secrets_snapshot {e : SecretEntry} :
    e ∈ (snapshotGroup up gid g own).secrets ↔
      ∃ row, secretDataCurrent up gid e.name = some row ∧ e.currentVersion = row.version ∧
        e.dekVersion = row.dekVersion ∧ e.nonce = row.nonce := by
  show e ∈ (secretEntries up gid).map _ ↔ _
  rw [List.mem_map]
  constructor
  · rintro ⟨x, hx, rfl⟩
    obtain ⟨row, hrow, he⟩ := mem_secretEntries.mp hx
    refine ⟨row, hrow, ?_⟩
    dsimp only
    rw [he]
    exact ⟨rfl, rfl, rfl⟩
  · rintro ⟨row, hrow, hv, hd, hn⟩
    refine ⟨(e.name, row.version, row.dekVersion, row.nonce), mem_secretEntries.mpr ⟨row, hrow, rfl⟩, ?_⟩
    rw [← hv, ← hd, ← hn]

/-- READ を持つ replica は、登録されたどの version の wrap も受け取る。 -/
theorem dek_snapshot (hk : KeyWrap prim up) (hauth : syncReadAuthorized up own g = some gid)
    {v : Nat} (hv : ⟨gid, v⟩ ∈ up.groupDek) :
    ∃ d ∈ (snapshotGroup up gid g own).deks, d.version = v := by
  obtain ⟨-, i, hi, hie, hbit⟩ := syncReadAuthorized_eq_some.mp hauth
  have hread : HoldsRead up own gid := holdsRead_iff.mpr ⟨i, hi, hie, hbit⟩
  obtain ⟨b, hb⟩ := (hk.recipients hv own).mpr (Or.inr (Or.inr hread))
  exact ⟨⟨v, b⟩, mem_deks_snapshot.mpr ⟨hv, hb⟩, rfl⟩

/-! ## 行 -/

theorem secretVersion_of_current {name : String} {row : SecretDataRow}
    (h : secretDataCurrent db gid name = some row) : secretVersion db gid name = some row.version := by
  obtain ⟨s, hs, hg, hn, v, -, -, hv, rfl⟩ := secretDataCurrent_eq_some.mp h
  unfold secretVersion
  rw [secretRow_eq_some.mpr ⟨hs, hg, hn⟩, Option.map_some]
  exact congrArg some hv.symm

/-- `(version, dek_version, nonce)` の同じ行は同じ暗号文を持つ。 -/
def SameCipher (r r' : SecretDataRow) : Prop :=
  r.version = r'.version → r.dekVersion = r'.dekVersion → r.nonce = r'.nonce →
    r.ciphertext = r'.ciphertext

/-- 手元の行のうち上流の行と見分けの付かないものは、上流の行と同じ中身を持つ。 -/
def Faithful (up mirror : Db) (g : String) : Prop :=
  ∀ n r r', (slotOf mirror g n).2 = some r → (slotOf up g n).2 = some r' → SameCipher r r'

/-- 取り寄せた行は上流の今の行で、返らなかった名前は上流に無い。 -/
structure Fresh (up mirror : Db) (gid : Nat) (s : GroupSyncState) (rows : List FetchedSecret) :
    Prop where
  fetched : ∀ f ∈ rows, secretDataCurrent up gid f.name = some f.toSecretDataRow
  missing : ∀ n ∈ secretsNeedingFetch mirror s, (∀ f ∈ rows, f.name ≠ n) →
    secretDataCurrent up gid n = none
  asked : ∀ f ∈ rows, f.name ∈ secretsNeedingFetch mirror s

theorem slotOf_current {up : Db} (hc : Complete up) (hg : groupId up g = some gid) (n : String) :
    slotOf up g n = ((secretDataCurrent up gid n).map (·.version), secretDataCurrent up gid n) := by
  rw [slotOf_eq hg, ← hc.secretVersion_eq]
  rfl

variable {rows : List FetchedSecret} {gm : Nat}

/-- 取り寄せて写した行は、読める。 -/
theorem latest_decryptable (hu : Servable prim up) (hauth : syncReadAuthorized up own g = some gid)
    (hf : Fresh up mirror gid (snapshotGroup up gid g own) rows) {n : String} {row : SecretDataRow}
    (hrow : secretDataCurrent up gid n = some row) (hex : ∃ f ∈ rows, f.name = n) :
    ∃ f, latest (Replica.decryptable (snapshotGroup up gid g own) rows) n = some f ∧
      f.toSecretDataRow = row := by
  obtain ⟨f, hfm, rfl⟩ := hex
  have hdata : ∀ f' ∈ rows, f'.name = f.name → f'.toSecretDataRow = row := by
    intro f' hf' hn
    have h := hf.fetched f' hf'
    rw [hn, hrow] at h
    exact (Option.some.inj h).symm
  have hdec : f ∈ Replica.decryptable (snapshotGroup up gid g own) rows := by
    refine List.mem_filter.mpr ⟨hfm, List.any_eq_true.mpr ?_⟩
    obtain ⟨d, hd, hv⟩ := dek_snapshot hu.keys hauth (hu.registered (hf.fetched f hfm))
    exact ⟨d, hd, beq_iff_eq.mpr hv⟩
  cases hl : latest (Replica.decryptable (snapshotGroup up gid g own) rows) f.name with
  | none => exact absurd rfl (latest_eq_none.mp hl f hdec)
  | some f' =>
    obtain ⟨hm, hn⟩ := latest_eq_some hl
    exact ⟨f', rfl, hdata f' (List.mem_filter.mp hm).1 hn⟩

/-- 反映の後の行は、上流の行である。 -/
theorem slot_applied (hu : Servable prim up) (hauth : syncReadAuthorized up own g = some gid)
    (hf : Fresh up mirror gid (snapshotGroup up gid g own) rows) (hfaith : Faithful up mirror g)
    (h : Applied own (snapshotGroup up gid g own)
      (Replica.decryptable (snapshotGroup up gid g own) rows) gm mirror db) (n : String) :
    secretVersion db gm n = secretVersion up gid n ∧ secretCurrent db gm n = secretCurrent up gid n := by
  obtain ⟨hgid, -⟩ := syncReadAuthorized_eq_some.mp hauth
  have hloc : groupId db g = some gm := h.located
  have hslot := h.slotOf g n
  have hname : g = (snapshotGroup up gid g own).name := rfl
  rw [slotOf_eq hloc, if_pos hname] at hslot
  rw [hu.secrets.secretVersion_eq, secretCurrent_eq, secretCurrent_eq]
  cases hrow : secretDataCurrent up gid n with
  | none =>
    have hlist : ∀ e ∈ (snapshotGroup up gid g own).secrets, e.name ≠ n := by
      rintro e he rfl
      obtain ⟨row, hrow', -⟩ := mem_secrets_snapshot.mp he
      rw [hrow] at hrow'
      cases hrow'
    rw [if_pos hlist] at hslot
    obtain ⟨hversion, hdata⟩ := Prod.mk.inj hslot
    rw [hversion, hdata]
    exact ⟨rfl, rfl⟩
  | some row =>
    have hlist : ¬ ∀ e ∈ (snapshotGroup up gid g own).secrets, e.name ≠ n := fun hno =>
      hno ⟨n, row.version, row.dekVersion, row.nonce⟩
        (mem_secrets_snapshot.mpr ⟨row, hrow, rfl, rfl, rfl⟩) rfl
    rw [if_neg hlist] at hslot
    unfold fetchedSlot at hslot
    by_cases hex : ∃ f ∈ rows, f.name = n
    · -- 取り寄せた行に置き換わる
      obtain ⟨f, hl, hfr⟩ := latest_decryptable hu hauth hf hrow hex
      rw [hl] at hslot
      obtain ⟨hversion, hdata⟩ := Prod.mk.inj hslot
      rw [hversion, hdata, ← hfr]
      exact ⟨rfl, rfl⟩
    · -- 取り寄せなかったので、手元の行が残る
      have hno : latest (Replica.decryptable (snapshotGroup up gid g own) rows) n = none :=
        latest_eq_none.mpr fun f hm hn => hex ⟨f, (List.mem_filter.mp hm).1, hn⟩
      have hneed : n ∉ secretsNeedingFetch mirror (snapshotGroup up gid g own) := by
        intro hneed
        have hnone := hf.missing n hneed fun f hm hn => hex ⟨f, hm, hn⟩
        rw [hrow] at hnone
        cases hnone
      obtain ⟨r, hr, hv, hd, hnonce⟩ := current_of_not_needed
        (e := ⟨n, row.version, row.dekVersion, row.nonce⟩)
        (mem_secrets_snapshot.mpr ⟨row, hrow, rfl, rfl, rfl⟩) hneed
      have hc := hfaith n r row hr (by rw [slotOf_current hu.secrets hgid, hrow]) hv hd hnonce
      rw [hno] at hslot
      change slot db gm n = slotOf mirror g n at hslot
      have hcur : secretDataCurrent db gm n = some r := (congrArg Prod.snd hslot).trans hr
      rw [secretVersion_of_current hcur, hcur]
      change r.version = row.version at hv
      change r.dekVersion = row.dekVersion at hd
      change r.nonce = row.nonce at hnonce
      rw [Option.map_some, Option.map_some, Option.map_some, hv, hd, hnonce, hc]
      exact ⟨rfl, rfl⟩

/-- **上流の今の snapshot と行を写せば、group の見え方は上流のものになる。** -/
theorem viewOf_applied (hu : Servable prim up) (hauth : syncReadAuthorized up own g = some gid)
    (hf : Fresh up mirror gid (snapshotGroup up gid g own) rows) (hfaith : Faithful up mirror g)
    (h : Applied own (snapshotGroup up gid g own)
      (Replica.decryptable (snapshotGroup up gid g own) rows) gm mirror db) :
    viewOf db own g = some (groupView up own gid) := by
  have hloc : groupId db g = some gm := h.located
  unfold viewOf
  rw [hloc, Option.map_some]
  have hslot := slot_applied hu hauth hf hfaith h
  refine congrArg some (groupView_congr ?_ ?_ (fun n => (hslot n).1) fun n => (hslot n).2)
  · exact fun e => h.mem_aclEntriesFull.trans mem_acl_snapshot
  · intro v b
    rw [h.wraps, ← latestDek_snapshot (g := g) hu.keys]
    simp

end SecretBunker
