import SecretBunker.Server.Disclosure
import SecretBunker.Server.Refinement
import SecretBunker.Store.Mirror

/-!
# 書かれた行

どの現在の行も、ある成功した Put が書いたもので、その値の暗号文である。
誰が書いたと言えるかは使う側が `wrote` で与え、要求一つごとに保たれることをここで示す。
-/

namespace SecretBunker

open Relational Store

/-- `(group, name)` に値を書いた行。 -/
abbrev Writing := String → String → SecretDataRow → Bytes → Prop

variable {prim : Primitives} {inner : Inner} {wrote : Writing} {db db' : Db} {amb : Ambient}

/-- `row` は `(g, n)` に書かれた値の暗号文である。 -/
def Genuine (prim : Primitives) (wrote : Writing) (db : Db) (g n : String) (row : SecretDataRow) :
    Prop :=
  ∃ gid value, groupId db g = some gid ∧ Sealed prim db gid g n row value ∧ wrote g n row value

/-- 鍵と行が揃い、どの現在の行も書かれたものである権威 node の store。 -/
structure Attested (prim : Primitives) (inner : Inner) (wrote : Writing) (db : Db) : Prop
    extends Consistent prim db where
  opened : inner.Matches prim db
  rows : ∀ {g n row}, (slotOf db g n).2 = some row → Genuine prim wrote db g n row

theorem slotOf_snd {g n : String} {row : SecretDataRow} :
    (slotOf db g n).2 = some row ↔
      ∃ gid, groupId db g = some gid ∧ secretDataCurrent db gid n = some row := by
  cases hg : groupId db g with
  | none =>
    rw [slotOf_absent hg]
    refine iff_of_false (fun h => nomatch h) ?_
    rintro ⟨gid, h, -⟩
    cases h
  | some gid =>
    rw [slotOf_eq hg]
    refine ⟨fun h => ⟨gid, rfl, h⟩, ?_⟩
    rintro ⟨gid', h, hrow⟩
    cases h
    exact hrow

theorem Genuine.stable {g n : String} {row : SecretDataRow} (h : Genuine prim wrote db g n row)
    (hs : Stable prim db db') : Genuine prim wrote db' g n row := by
  obtain ⟨gid, value, hg, hseal, hw⟩ := h
  exact ⟨gid, value, hs.groupId hg, hseal.stable hs, hw⟩

namespace Attested

theorem audit (h : Attested prim inner wrote db) (log : List AuditRow) :
    Attested prim inner wrote (db.withAudit log) where
  toConsistent := h.toConsistent.audit log
  opened := h.opened.audit log
  rows := fun hrow => (h.rows hrow).stable ⟨fun _ h => h, fun _ h => h, fun _ h => h⟩

theorem registered (h : Attested prim inner wrote db) {gid : Nat} {name : String}
    {row : SecretDataRow} (hrow : secretDataCurrent db gid name = some row) :
    ⟨gid, row.dekVersion⟩ ∈ db.groupDek := by
  obtain ⟨r, hr, hid⟩ := group_of_secretDataCurrent hrow
  have hg : groupId db r.name = some gid := groupId_eq_some.mpr (hid ▸ hr)
  obtain ⟨gid', value, hg', hseal, -⟩ := h.rows (slotOf_snd.mpr ⟨gid, hg, hrow⟩)
  obtain rfl : gid' = gid := Option.some.inj (hg'.symm.trans hg)
  exact hseal.registered

/-- `init` の直後には行が無い。 -/
theorem init (laws : prim.Lawful) {op backup endpoint name : String} (hlen : endpoint.length = 64)
    (hinit : Node.init op backup endpoint name = some db) {key : AgeIdentity}
    (hnew : Bunker.new prim db key = some inner) : Attested prim inner wrote db where
  toConsistent := consistent_init hlen hinit
  opened := (matches_of_new laws hnew).1
  rows := by
    intro g n row hrow
    obtain ⟨gid, hg, -⟩ := slotOf_snd.mp hrow
    obtain ⟨m, t, ht, rfl, -⟩ := init_spec hinit
    exact absurd (groupId_eq_some.mp hg) Table.mem_empty

theorem stable_handle (laws : prim.Lawful) (h : Attested prim inner wrote db) (amb : Ambient)
    (remote : String) (req : Request) :
    Stable prim db (Bunker.handle prim inner amb db remote req).db :=
  .of_turn laws (turn_handle laws h.keys.endpoints h.opened remote req)

/-- 要求の後の行は、前からの行か、その要求の Put が書いた行である。 -/
theorem row_handle (laws : prim.Lawful) (h : Attested prim inner wrote db) (remote : String)
    (req : Request) {g n : String} {row : SecretDataRow}
    (hrow : (slotOf (Bunker.handle prim inner amb db remote req).db g n).2 = some row) :
    (slotOf db g n).2 = some row ∨ ∃ gid value e,
      req = .put g n value e ∧
      (Bunker.handle prim inner amb db remote req).response = .version (e.toNat + 1) ∧
      row.nonce = amb.nonce.bytes ∧ groupId db g = some gid ∧
      Sealed prim (Bunker.handle prim inner amb db remote req).db gid g n row value := by
  have hs := h.stable_handle laws amb remote req
  have hstep := @secretStep_handle prim db inner amb h.secrets remote req
  generalize (Bunker.handle prim inner amb db remote req).response = resp at hstep ⊢
  generalize (Bunker.handle prim inner amb db remote req).db = db' at hrow hs hstep ⊢
  obtain ⟨gid, hg, hrow⟩ := slotOf_snd.mp hrow
  -- 前からある行は、前からある group のものである
  have hold : secretDataCurrent db gid n = some row → (slotOf db g n).2 = some row := by
    intro hcur
    cases hg₀ : groupId db g with
    | none =>
      rw [no_secret_of_new_group hs hg₀ hg n] at hcur
      cases hcur
    | some gid₀ =>
      obtain rfl : gid₀ = gid := Option.some.inj ((hs.groupId hg₀).symm.trans hg)
      rw [slotOf_eq hg₀]
      exact hcur
  cases hstep with
  | keep same quiet => exact Or.inl (hold (same.secretDataCurrent gid n ▸ hrow))
  | @put group name writer value e gid' dv dek located expected newest unwrapped stored =>
    rw [stored.current] at hrow
    split at hrow
    · next hgn =>
      obtain ⟨rfl, rfl⟩ := hgn
      obtain rfl : g = group := groupId_inj hg (hs.groupId located)
      cases hrow
      exact Or.inr ⟨gid, value, e, rfl, rfl, rfl, located, sealed_put laws h.keys hs newest unwrapped⟩
    · exact Or.inl (hold hrow)
  | @delete group name e gid' located expected removed =>
    rw [removed.current] at hrow
    split at hrow
    · cases hrow
    · exact Or.inl (hold hrow)

theorem handle (laws : prim.Lawful) (h : Attested prim inner wrote db) (remote : String)
    (req : Request)
    (hw : ∀ g n value e row, req = .put g n value e →
      (Bunker.handle prim inner amb db remote req).response = .version (e.toNat + 1) →
      (slotOf (Bunker.handle prim inner amb db remote req).db g n).2 = some row →
      row.nonce = amb.nonce.bytes → wrote g n row value) :
    Attested prim inner wrote (Bunker.handle prim inner amb db remote req).db where
  toConsistent := consistent_handle laws h.toConsistent h.opened remote req
  opened := h.opened.of_turn (turn_handle laws h.keys.endpoints h.opened remote req)
  rows := by
    intro g n row hrow
    have hs := h.stable_handle laws amb remote req
    rcases h.row_handle laws remote req hrow with hold | ⟨gid, value, e, hreq, hresp, hnonce, hg, hseal⟩
    · exact (h.rows hold).stable hs
    · exact ⟨gid, value, hs.groupId hg, hseal, hw g n value e row hreq hresp hrow hnonce⟩

end Attested

/-! ## DEK -/

/-- version の wrap がどれも包んでいる DEK。 -/
def DekOf (prim : Primitives) (db : Db) (gid v : Nat) (dek : Dek) : Prop :=
  ⟨gid, v⟩ ∈ db.groupDek ∧ ∀ r b, ⟨gid, v, r, b⟩ ∈ db.dekWrap → WrappedAs prim db dek r b

theorem DekOf.stable {gid v : Nat} {dek : Dek} (h : DekOf prim db gid v dek)
    (hs : Stable prim db db') : DekOf prim db' gid v dek :=
  ⟨hs.registered _ h.1, hs.opens h.1 h.2⟩

/-- operational の wrap が開けるので、DEK は version ごとに一つに決まる。 -/
theorem DekOf.unique (laws : prim.Lawful) (h : Attested prim inner wrote db) {gid v : Nat}
    {dek dek' : Dek} (hd : DekOf prim db gid v dek) (hd' : DekOf prim db gid v dek') : dek = dek' := by
  obtain ⟨b, hb⟩ := (h.keys.recipients hd.1 recipientOperational).mpr (Or.inl rfl)
  obtain ⟨seed, r, hr, hw⟩ := hd.2 _ b hb
  obtain ⟨seed', r', hr', hw'⟩ := hd'.2 _ b hb
  obtain rfl : r = r' := Option.some.inj (hr.symm.trans hr')
  have hr : r = prim.toPublic inner.opIdentity :=
    (Option.some.inj (hr.symm.trans h.opened.operational)).trans h.opened.identity
  have hopen : unwrapDek prim b inner.opIdentity = some dek' := by
    rw [hw', hr]
    exact unwrapDek_wrapDek laws seed' dek' _
  rw [hw] at hopen
  exact (eq_of_unwrapDek laws hopen).symm

/-- `b` は `own` の鍵に、group の version `v` の DEK を包んだものである。 -/
def OwnWrap (prim : Primitives) (own : String) (db : Db) (g : String) (v : Nat) (b : Bytes) : Prop :=
  ∃ gid dek seed recipient, groupId db g = some gid ∧ DekOf prim db gid v dek ∧
    recipientForEndpointHex prim own = some recipient ∧ b = wrapDek prim seed dek recipient

theorem OwnWrap.stable {own g : String} {v : Nat} {b : Bytes} (h : OwnWrap prim own db g v b)
    (hs : Stable prim db db') : OwnWrap prim own db' g v b := by
  obtain ⟨gid, dek, seed, r, hg, hd, hr, hb⟩ := h
  exact ⟨gid, dek, seed, r, hs.groupId hg, hd.stable hs, hr, hb⟩

/-- store にある `own` 宛ての wrap。 -/
theorem ownWrap_of_mem (hk : KeyWrap prim db) {own g : String} {gid v : Nat} {b : Bytes}
    (hlen : own.length = 64) (hg : groupId db g = some gid) (hb : ⟨gid, v, own, b⟩ ∈ db.dekWrap) :
    OwnWrap prim own db g v b := by
  have hv := hk.registered _ hb
  obtain ⟨dek, hdek⟩ := hk.opens hv
  obtain ⟨seed, r, hr, hw⟩ := hdek own b hb
  unfold recipientOf at hr
  rw [if_neg (ne_operational_of_length hlen), if_neg (ne_backup_of_length hlen)] at hr
  exact ⟨gid, dek, seed, r, hg, ⟨hv, hdek⟩, hr, hw⟩

end SecretBunker
