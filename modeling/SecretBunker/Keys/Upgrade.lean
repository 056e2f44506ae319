import SecretBunker.Keys.Recovery
import SecretBunker.Role

/-!
# 古い database からの移行

v1 の database を開くと、wrap の二つの列は行になるが、READ を持つ identity に宛てた wrap はまだ無い。包むには
operational key が要るので、それは `serve` が起動のときに補う（`backfill_reader_wraps`）。

補う仕事の一覧は四つの表の join で作り、一行ずつ書く。transaction ではないので途中で止まりうるが、止まった
ところまでの行は正しく、残りは次の起動で補われる。
-/

namespace SecretBunker

open Relational Transaction Store

/-! ## backfill -/

namespace Store

/-- READ を持つのに wrap の無い `(group, version, endpoint)`。LEFT JOIN の相手が無い行だけが残る。 -/
def missingReaderWraps (db : Db) : List (Nat × Nat × String) :=
  sortOn (fun x => toLex (x.1, toLex (x.2.1, x.2.2)))
    ((db.groupAcl.rows.filter fun a => hasBit a.perms permRead).flatMap fun a =>
      (db.identity.rows.filter fun i => i.id == a.identityId).flatMap fun i =>
        (db.groupDek.rows.filter fun d => d.groupId == a.groupId &&
            (wrapRow db a.groupId d.version i.endpointId).isNone).map fun d =>
          (a.groupId, d.version, i.endpointId))

theorem wrapRow_isNone {db : Db} {g v : Nat} {r : String} :
    (wrapRow db g v r).isNone ↔ ∀ b, ⟨g, v, r, b⟩ ∉ db.dekWrap := by
  have hmap : (wrapRow db g v r).isNone ↔ dekWrap db g v r = none := by
    rw [dekWrap, Option.map_eq_none_iff, Option.isNone_iff_eq_none]
  rw [hmap]
  constructor
  · intro hnone b hb
    rw [dekWrap_eq_some.mpr hb] at hnone
    cases hnone
  · intro hall
    cases hw : dekWrap db g v r with
    | none => rfl
    | some b => exact absurd (dekWrap_eq_some.mp hw) (hall b)

theorem mem_missingReaderWraps {db : Db} {g v : Nat} {e : String} :
    (g, v, e) ∈ missingReaderWraps db ↔
      HoldsRead db e g ∧ ⟨g, v⟩ ∈ db.groupDek ∧ ∀ b, ⟨g, v, e, b⟩ ∉ db.dekWrap := by
  simp only [missingReaderWraps, mem_sortOn, List.mem_flatMap, List.mem_map, List.mem_filter,
    Bool.and_eq_true, beq_iff_eq, wrapRow_isNone]
  constructor
  · rintro ⟨a, ⟨ha, hread⟩, i, ⟨hi, hid⟩, d, ⟨hd, hg, hnone⟩, he⟩
    obtain ⟨rfl, rfl, rfl⟩ : a.groupId = g ∧ d.version = v ∧ i.endpointId = e := by
      simpa using he
    exact ⟨⟨i, hi, rfl, a, ha, hid.symm, rfl, hread⟩, hg ▸ hd, hnone⟩
  · rintro ⟨⟨i, hi, rfl, a, ha, hid, rfl, hread⟩, hd, hnone⟩
    exact ⟨a, ⟨ha, hread⟩, i, ⟨hi, hid.symm⟩, ⟨a.groupId, v⟩, ⟨hd, rfl, hnone⟩, rfl⟩

end Store

/-- 一覧の一行を補う。 -/
def Bunker.backfillOne (prim : Primitives) (inner : Inner) (amb : Ambient) (db : Db)
    (x : Nat × Nat × String) : Option Db := do
  let dek ← Bunker.unwrapOperational prim inner.opIdentity db x.1 x.2.1
  let reader ← Bunker.wrapForReader prim (amb.seed x.1 x.2.1) dek x.2.2
  db.upsertWrap x.1 x.2.1 x.2.2 reader.2

namespace Statements

/-- `unwrap_dek`、`wrap_for_reader`、`add_dek_wrap`。 -/
def backfillOne (prim : Primitives) (inner : Inner) (amb : Ambient) (x : Nat × Nat × String) :
    Sql Db Unit := do
  let wrapped ← query fun db => Store.dekWrap db x.1 x.2.1 recipientOperational
  let dek ← OptionT.mk (pure (unwrapDek prim wrapped inner.opIdentity))
  let reader ← OptionT.mk (pure (Bunker.wrapForReader prim (amb.seed x.1 x.2.1) dek x.2.2))
  execute fun db => db.upsertWrap x.1 x.2.1 x.2.2 reader.2

/-- 足りない wrap をすべて補い、その数を返す。 -/
def backfillReaderWraps (prim : Primitives) (inner : Inner) (amb : Ambient) : Sql Db Nat := do
  let missing ← query fun db => some (Store.missingReaderWraps db)
  missing.forM (backfillOne prim inner amb)
  pure missing.length

variable {prim : Primitives} {inner : Inner} {amb : Ambient} {db : Db}

theorem performs_backfillOne (x : Nat × Nat × String) :
    Performs (backfillOne prim inner amb x) fun db =>
      (Bunker.backfillOne prim inner amb db x).map fun db' => ((), db') := by
  have hread : Performs (backfillOne prim inner amb x) _ :=
    .bind (f := fun db => Store.dekWrap db x.1 x.2.1 recipientOperational) (.statement _) fun wrapped =>
      .bind (f := fun _ => unwrapDek prim wrapped inner.opIdentity) (.option _) fun dek =>
        .bind (f := fun _ => Bunker.wrapForReader prim (amb.seed x.1 x.2.1) dek x.2.2) (.option _)
          fun _ => .statement _
  refine hread.congr fun db => ?_
  simp only [Bunker.backfillOne, Bunker.unwrapOperational, Option.bind_eq_bind, Option.bind_assoc,
    Option.map_bind, Function.comp_def]

theorem computes_backfillOne (x : Nat × Nat × String) (db : Db) :
    Computes (backfillOne prim inner amb x) db
      ((Bunker.backfillOne prim inner amb db x).map fun db' => ((), db')) := by
  refine ((Computes.statement _ db).bind fun wrapped db => (Computes.option _ db).bind fun dek db =>
    (Computes.option _ db).bind fun reader db => Computes.execute _ db).congr ?_
  simp only [Bunker.backfillOne, Bunker.unwrapOperational, Option.bind_eq_bind, Option.bind_assoc,
    Function.comp_def, Option.map_eq_bind, Option.bind_some]

/-- どこで故障しても、埋めたのは足りない wrap の先頭からである。 -/
theorem backfillReaderWraps_prefix (c : Conn Db) :
    ∃ done, done <+: Store.missingReaderWraps c.data ∧
      done.foldlM (Bunker.backfillOne prim inner amb) c.data =
        some ((backfillReaderWraps prim inner amb).run c).2.data := by
  unfold backfillReaderWraps query
  rw [run_bind, bind_apply]
  rcases Performs.statement (fun db : Db => (some (Store.missingReaderWraps db)).map fun l => (l, db)) c
    with ⟨hnone, hsame⟩ | ⟨missing, hsome, hf⟩
  · rw [hnone]
    exact ⟨[], List.nil_prefix, congrArg some hsame.symm⟩
  · obtain ⟨rfl, hdata⟩ := Prod.mk.inj (Option.some.inj hf)
    rw [hsome]
    dsimp only
    obtain ⟨done, hpre, hfold, -⟩ := Performs.forM (f := Bunker.backfillOne prim inner amb)
      performs_backfillOne (Store.missingReaderWraps c.data) ((statement _).run c).2
    rw [← hdata] at hfold
    exact ⟨done, hpre, hfold.trans (congrArg (fun c => some (Conn.data c)) (run_bind_pure _ _ _).symm)⟩

theorem backfillReaderWraps_calm {db' : Db}
    (h : (Store.missingReaderWraps db).foldlM (Bunker.backfillOne prim inner amb) db = some db') :
    (backfillReaderWraps prim inner amb).run (.calm db) =
      (some (Store.missingReaderWraps db).length, .calm db') := by
  have hcomp : Computes (backfillReaderWraps prim inner amb) db _ :=
    .select_bind (f := Store.missingReaderWraps)
      ((Computes.forM (fun x db => computes_backfillOne x db) (Store.missingReaderWraps db) db).bind
        fun _ db' => Computes.pure (Store.missingReaderWraps db).length db')
  rw [h] at hcomp
  exact Prod.ext hcomp.value (hcomp.state _ _ rfl)

end Statements

variable {prim : Primitives} {inner : Inner} {amb : Ambient} {key : AgeIdentity} {db mid db' : Db}

/-! ## 補われた database -/

/-- 正しい endpoint id。age の recipient を導け、64 文字の 16 進なので `operational` や `backup` と紛れない。 -/
def EndpointValid (prim : Primitives) (e : String) : Prop :=
  e ≠ recipientOperational ∧ e ≠ recipientBackup ∧
    ∃ recipient, recipientForEndpointHex prim e = some recipient

/-- 登録された endpoint は、どれも公開鍵に直せる。 -/
def EndpointsValid (prim : Primitives) (db : Db) : Prop :=
  ∀ i ∈ db.identity, EndpointValid prim i.endpointId

/-- `db'` は、`db` に正しい reader の wrap をいくつか足したものである。 -/
structure Filled (prim : Primitives) (key : AgeIdentity) (db db' : Db) : Prop where
  only : ∃ t hw, db' = db.withWraps t hw
  kept : ∀ w ∈ db.dekWrap, w ∈ db'.dekWrap
  added : ∀ w ∈ db'.dekWrap, w ∈ db.dekWrap ∨
    HoldsRead db w.recipient w.groupId ∧ ⟨w.groupId, w.dekVersion⟩ ∈ db.groupDek ∧
      ∃ dek recipient seed, Bunker.unwrapOperational prim key db w.groupId w.dekVersion = some dek ∧
        recipientForEndpointHex prim w.recipient = some recipient ∧
          w.wrapped = wrapDek prim seed dek recipient

/-- READ を持つ者すべての wrap が揃った。揃った後の wrap の場所は、`db` だけで決まる。 -/
def ReadersWrapped (db db' : Db) : Prop :=
  ∀ g v e, (∃ b, ⟨g, v, e, b⟩ ∈ db'.dekWrap) ↔
    (∃ b, ⟨g, v, e, b⟩ ∈ db.dekWrap) ∨ HoldsRead db e g ∧ ⟨g, v⟩ ∈ db.groupDek

namespace Filled

theorem refl (db : Db) : Filled prim key db db :=
  ⟨⟨db.dekWrap, db.wrapGroup, rfl⟩, fun _ h => h, fun _ h => Or.inl h⟩

theorem holdsRead (h : Filled prim key db db') {e : String} {g : Nat} :
    HoldsRead db' e g ↔ HoldsRead db e g := by
  obtain ⟨t, hw, rfl⟩ := h.only
  exact Iff.rfl

theorem groupDek (h : Filled prim key db db') : db'.groupDek = db.groupDek := by
  obtain ⟨t, hw, rfl⟩ := h.only
  rfl

theorem identity (h : Filled prim key db db') : db'.identity = db.identity := by
  obtain ⟨t, hw, rfl⟩ := h.only
  rfl

theorem metadata (h : Filled prim key db db') : db'.metadata = db.metadata := by
  obtain ⟨t, hw, rfl⟩ := h.only
  rfl

variable (hvalid : EndpointsValid prim db)
include hvalid

/-- 足した wrap の宛先は reader なので、operational と backup の wrap は変わらない。 -/
theorem mem_reserved (h : Filled prim key db db') {w : WrapRow}
    (hr : w.recipient = recipientOperational ∨ w.recipient = recipientBackup) :
    w ∈ db'.dekWrap ↔ w ∈ db.dekWrap := by
  refine ⟨fun hw => (h.added w hw).resolve_right ?_, h.kept w⟩
  rintro ⟨⟨i, hi, he, -⟩, -⟩
  rcases hr with hr | hr
  · exact (hvalid i hi).1 (he.trans hr)
  · exact (hvalid i hi).2.1 (he.trans hr)

theorem unwrapOperational (h : Filled prim key db db') (op : AgeIdentity) (g v : Nat) :
    Bunker.unwrapOperational prim op db' g v = Bunker.unwrapOperational prim op db g v := by
  have hwrap : Store.dekWrap db' g v recipientOperational =
      Store.dekWrap db g v recipientOperational := by
    refine Option.ext fun b => ?_
    rw [dekWrap_eq_some, dekWrap_eq_some]
    exact h.mem_reserved hvalid (Or.inl rfl)
  unfold Bunker.unwrapOperational
  rw [hwrap]

theorem trans (h₁ : Filled prim key db mid) (h₂ : Filled prim key mid db') :
    Filled prim key db db' where
  only := by
    obtain ⟨t, hw, rfl⟩ := h₁.only
    obtain ⟨t', hw', rfl⟩ := h₂.only
    exact ⟨t', hw', rfl⟩
  kept w hw := h₂.kept w (h₁.kept w hw)
  added w hw := by
    rcases h₂.added w hw with hw | ⟨hread, hdek, dek, recipient, seed, hu, hrest⟩
    · exact h₁.added w hw
    · rw [h₁.unwrapOperational hvalid] at hu
      exact Or.inr ⟨h₁.holdsRead.mp hread, h₁.groupDek ▸ hdek, dek, recipient, seed, hu, hrest⟩

/-- 一行を補う。 -/
theorem backfillOne {x : Nat × Nat × String} (h : Filled prim inner.opIdentity db mid)
    (hx : x ∈ missingReaderWraps db) (hone : Bunker.backfillOne prim inner amb mid x = some db') :
    Filled prim inner.opIdentity db db' ∧
      ∀ g v e, (∃ b, ⟨g, v, e, b⟩ ∈ db'.dekWrap) ↔
        (∃ b, ⟨g, v, e, b⟩ ∈ mid.dekWrap) ∨ (g, v, e) = x := by
  obtain ⟨g, v, e⟩ := x
  obtain ⟨hread, hdek, hnone⟩ := mem_missingReaderWraps.mp hx
  obtain ⟨dek, hu, hone⟩ := Option.bind_eq_some_iff.mp hone
  obtain ⟨reader, hreader, hone⟩ := Option.bind_eq_some_iff.mp hone
  obtain ⟨recipient, hrec, rfl⟩ := wrapForReader_eq_some hreader
  obtain ⟨t, hw, rfl⟩ := h.only
  obtain ⟨hw', rfl⟩ := upsertWrap_eq_some hone
  rw [h.unwrapOperational hvalid] at hu
  refine ⟨⟨⟨_, hw', rfl⟩, fun w hmem => ?_, fun w hmem => ?_⟩, fun g' v' e' => ?_⟩
  · -- 始めに無かった行だけが置き換わる
    refine Table.mem_upsert.mpr (Or.inl ⟨h.kept w hmem, ?_⟩)
    rintro ⟨rfl, rfl, rfl⟩
    exact hnone w.wrapped hmem
  · rcases Table.mem_upsert.mp hmem with ⟨hmem, -⟩ | rfl
    · exact h.added w hmem
    · exact Or.inr ⟨hread, hdek, dek, recipient, _, hu, hrec, rfl⟩
  · show (∃ b, _ ∈ t.upsert _) ↔ (∃ b, _ ∈ t) ∨ _
    constructor
    · rintro ⟨b, hb⟩
      rcases Table.mem_upsert.mp hb with ⟨hb, -⟩ | he
      · exact Or.inl ⟨b, hb⟩
      · obtain ⟨rfl, rfl, rfl, -⟩ := WrapRow.mk.inj he
        exact Or.inr rfl
    · intro hor
      by_cases he : (g', v', e') = (g, v, e)
      · cases he
        exact ⟨_, Table.mem_upsert.mpr (Or.inr rfl)⟩
      · obtain ⟨b, hb⟩ := hor.resolve_right he
        refine ⟨b, Table.mem_upsert.mpr (Or.inl ⟨hb, ?_⟩)⟩
        rintro ⟨hg, hv, hr⟩
        exact he (by rw [show g' = g from hg, show v' = v from hv, show e' = e from hr])

theorem foldlM {done : List (Nat × Nat × String)} (hdone : ∀ x ∈ done, x ∈ missingReaderWraps db)
    (h : Filled prim inner.opIdentity db mid)
    (hfold : done.foldlM (Bunker.backfillOne prim inner amb) mid = some db') :
    Filled prim inner.opIdentity db db' ∧
      ∀ g v e, (∃ b, ⟨g, v, e, b⟩ ∈ db'.dekWrap) ↔
        (∃ b, ⟨g, v, e, b⟩ ∈ mid.dekWrap) ∨ (g, v, e) ∈ done := by
  induction done generalizing mid with
  | nil =>
    cases hfold
    exact ⟨h, fun g v e => by simp⟩
  | cons x rest ih =>
    obtain ⟨hx, hrest⟩ := List.forall_mem_cons.mp hdone
    obtain ⟨next, hnext, hfold⟩ := Option.bind_eq_some_iff.mp (List.foldlM_cons.symm.trans hfold)
    obtain ⟨hfill, hplaces⟩ := h.backfillOne hvalid hx hnext
    obtain ⟨hfin, hmore⟩ := ih hrest hfill hfold
    refine ⟨hfin, fun g v e => ?_⟩
    rw [hmore, hplaces, List.mem_cons, or_assoc]

/-- 登録された version がどれも開くなら、一覧の最後まで補える。 -/
theorem exists_foldlM (hopen : ∀ d ∈ db.groupDek, ∃ dek,
      Bunker.unwrapOperational prim inner.opIdentity db d.groupId d.version = some dek)
    {todo : List (Nat × Nat × String)} (htodo : ∀ x ∈ todo, x ∈ missingReaderWraps db)
    (h : Filled prim inner.opIdentity db mid) :
    ∃ db', todo.foldlM (Bunker.backfillOne prim inner amb) mid = some db' := by
  induction todo generalizing mid with
  | nil => exact ⟨mid, rfl⟩
  | cons x rest ih =>
    obtain ⟨hx, hrest⟩ := List.forall_mem_cons.mp htodo
    obtain ⟨next, hnext⟩ : ∃ next, Bunker.backfillOne prim inner amb mid x = some next := by
      obtain ⟨g, v, e⟩ := x
      obtain ⟨⟨i, hi, rfl, -⟩, hdek, -⟩ := mem_missingReaderWraps.mp hx
      obtain ⟨dek, hdekOpen⟩ := hopen _ hdek
      obtain ⟨recipient, hrec⟩ := (hvalid i hi).2.2
      have hgroup : ∃ r ∈ mid.secretGroup, r.id = g := mid.dekGroup ⟨g, v⟩ (h.groupDek ▸ hdek)
      unfold Bunker.backfillOne Bunker.wrapForReader Db.upsertWrap
      rw [h.unwrapOperational hvalid, hdekOpen, hrec]
      exact ⟨_, dif_pos hgroup⟩
    rw [List.foldlM_cons, hnext]
    exact ih hrest (h.backfillOne hvalid hx hnext).1

theorem valid (h : Filled prim key db db') : EndpointsValid prim db' := by
  unfold EndpointsValid
  rw [h.identity]
  exact hvalid

/-- **途中で止まった backfill も、正しい wrap をいくつか足しただけである。** -/
theorem interrupted (h : Filled prim inner.opIdentity db mid) (amb : Ambient) (faults : List Bool) :
    Filled prim inner.opIdentity db
      ((Statements.backfillReaderWraps prim inner amb).run ⟨mid, faults⟩).2.data := by
  obtain ⟨done, hpre, hfold⟩ := @Statements.backfillReaderWraps_prefix prim inner amb ⟨mid, faults⟩
  have hfill := (Filled.refl mid).foldlM (h.valid hvalid) (fun x hx => hpre.subset hx) hfold
  exact h.trans hvalid hfill.1

/-- **止まらなければ、足りない wrap をすべて補う。** 済んだ後の wrap の場所は、始めの状態によらない。 -/
theorem completes (hopen : ∀ d ∈ db.groupDek, ∃ dek,
      Bunker.unwrapOperational prim inner.opIdentity db d.groupId d.version = some dek)
    (h : Filled prim inner.opIdentity db mid) (amb : Ambient) :
    ∃ db', (Statements.backfillReaderWraps prim inner amb).run (.calm mid) =
        (some (missingReaderWraps mid).length, .calm db') ∧
      Filled prim inner.opIdentity db db' ∧ ReadersWrapped db db' := by
  have hvalid' := h.valid hvalid
  obtain ⟨db', hfold⟩ : ∃ db', (missingReaderWraps mid).foldlM (Bunker.backfillOne prim inner amb)
      mid = some db' := by
    refine (Filled.refl mid).exists_foldlM hvalid' (fun d hd => ?_) fun x hx => hx
    rw [h.unwrapOperational hvalid]
    exact hopen d (h.groupDek ▸ hd)
  obtain ⟨hfill, hplaces⟩ := (Filled.refl mid).foldlM hvalid' (fun x hx => hx) hfold
  refine ⟨db', Statements.backfillReaderWraps_calm hfold, h.trans hvalid hfill, fun g v e => ?_⟩
  rw [hplaces, mem_missingReaderWraps, h.holdsRead, h.groupDek]
  constructor
  · rintro (⟨b, hb⟩ | ⟨hread, hdek, -⟩)
    · rcases h.added _ hb with hold | ⟨hread, hdek, -⟩
      · exact Or.inl ⟨b, hold⟩
      · exact Or.inr ⟨hread, hdek⟩
    · exact Or.inr ⟨hread, hdek⟩
  · rintro (⟨b, hb⟩ | ⟨hread, hdek⟩)
    · exact Or.inl ⟨b, h.kept _ hb⟩
    · by_cases hex : ∃ b, ⟨g, v, e, b⟩ ∈ mid.dekWrap
      · exact Or.inl hex
      · exact Or.inr ⟨hread, hdek, not_exists.mp hex⟩

end Filled

/-! ## 移行した database -/

/-- 登録された version の wrap は、宛先が operational、backup と reader に一致し、一つの DEK に開く。 -/
def WrapsMatchAcl (prim : Primitives) (db : Db) : Prop :=
  ∀ d ∈ db.groupDek,
    (∀ r, (∃ w ∈ db.dekWrap, w.groupId = d.groupId ∧ w.dekVersion = d.version ∧ w.recipient = r) ↔
      r = recipientOperational ∨ r = recipientBackup ∨ HoldsRead db r d.groupId) ∧
    ∃ dek, ∀ w ∈ db.dekWrap, w.groupId = d.groupId → w.dekVersion = d.version →
      OpensTo prim db w dek

namespace LegacyDb

/-- 記録された公開鍵を recipient として読む。 -/
def recordedRecipient (prim : Primitives) (l : LegacyDb) (key : String) : Option Recipient :=
  ((DbFile.legacy l).metaGet key).bind prim.parseAgeRecipient

/-- 二つの列は、記録された operational key と backup key で、一つの DEK に開く。 -/
def Opens (prim : Primitives) (l : LegacyDb) (d : LegacyDekRow) : Prop :=
  ∃ dek op backup, l.recordedRecipient prim "operational_pubkey" = some op ∧
    l.recordedRecipient prim "backup_pubkey" = some backup ∧
    (∀ key, prim.toPublic key = op → unwrapDek prim d.wrappedOperational key = some dek) ∧
    ∀ key, prim.toPublic key = backup → unwrapDek prim d.wrappedBackup key = some dek

end LegacyDb

/-- 移行を終えた database。wrap のほかの表は前のままで、二つの列はそのまま行になっている。 -/
structure Upgraded (prim : Primitives) (l : LegacyDb) (db : Db) : Prop where
  identity : db.identity = l.identity
  secretGroup : db.secretGroup = l.secretGroup
  groupAcl : db.groupAcl = l.groupAcl
  secret : db.secret = l.secret
  secretVersion : db.secretVersion = l.secretVersion
  auditLog : db.auditLog = l.auditLog
  groupDek : ∀ g v, ⟨g, v⟩ ∈ db.groupDek ↔ ∃ d ∈ l.groupDek, d.groupId = g ∧ d.version = v
  operational : ∀ g v b, ⟨g, v, recipientOperational, b⟩ ∈ db.dekWrap ↔
    ∃ d ∈ l.groupDek, d.groupId = g ∧ d.version = v ∧ d.wrappedOperational = b
  backup : ∀ g v b, ⟨g, v, recipientBackup, b⟩ ∈ db.dekWrap ↔
    ∃ d ∈ l.groupDek, d.groupId = g ∧ d.version = v ∧ d.wrappedBackup = b
  wraps : WrapsMatchAcl prim db

section Legacy

variable {l : LegacyDb}

/-- 開いた v1 の database。表は移されただけで、meta に印が足される。 -/
theorem openFile_legacy (l : LegacyDb) : ∃ t, openFile (.legacy l) = l.migrate.withMeta t ∧
    ∀ key, key ≠ "role" → key ≠ "schema_version" →
      metaGet (l.migrate.withMeta t) key = (DbFile.legacy l).metaGet key := by
  obtain ⟨t, ht, hmeta⟩ := openDb_spec l.migrate
  refine ⟨t, ht, fun key hr hs => ?_⟩
  rw [hmeta key hr hs, metaGet_migrate, if_neg hs]

theorem recipientOf_openFile (l : LegacyDb) :
    recipientOf prim (openFile (.legacy l)) recipientOperational =
        l.recordedRecipient prim "operational_pubkey" ∧
      recipientOf prim (openFile (.legacy l)) recipientBackup =
        l.recordedRecipient prim "backup_pubkey" := by
  obtain ⟨t, ht, hmeta⟩ := openFile_legacy l
  rw [ht, recipientOf_operational, recipientOf_backup, Node.recordedRecipient, Node.recordedRecipient,
    hmeta _ (by decide) (by decide), hmeta _ (by decide) (by decide)]
  exact ⟨rfl, rfl⟩

theorem mem_groupDek_openFile {g v : Nat} :
    ⟨g, v⟩ ∈ (openFile (.legacy l)).groupDek ↔ ∃ d ∈ l.groupDek, d.groupId = g ∧ d.version = v := by
  obtain ⟨t, ht, -⟩ := openFile_legacy l
  rw [ht]
  show _ ∈ (LegacyDb.dekRows l.groupDek).rows ↔ _
  rw [LegacyDb.dekRows, List.mem_map]
  exact exists_congr fun d => and_congr_right fun _ => by rw [DekRow.mk.injEq]

/-- 移した wrap は、古い行の二つの列である。 -/
theorem mem_dekWrap_openFile {g v : Nat} {r : String} {b : Bytes} :
    ⟨g, v, r, b⟩ ∈ (openFile (.legacy l)).dekWrap ↔
      ∃ d ∈ l.groupDek, d.groupId = g ∧ d.version = v ∧
        (r = recipientOperational ∧ d.wrappedOperational = b ∨
          r = recipientBackup ∧ d.wrappedBackup = b) := by
  obtain ⟨t, ht, -⟩ := openFile_legacy l
  rw [ht]
  show _ ∈ LegacyDb.wrapRows l.groupDek ↔ _
  rw [LegacyDb.mem_wrapRows]
  refine exists_congr fun d => and_congr_right fun _ => ?_
  rw [WrapRow.mk.injEq, WrapRow.mk.injEq]
  constructor
  · rintro (⟨rfl, rfl, rfl, rfl⟩ | ⟨rfl, rfl, rfl, rfl⟩)
    · exact ⟨rfl, rfl, Or.inl ⟨rfl, rfl⟩⟩
    · exact ⟨rfl, rfl, Or.inr ⟨rfl, rfl⟩⟩
  · rintro ⟨rfl, rfl, ⟨rfl, rfl⟩ | ⟨rfl, rfl⟩⟩
    · exact Or.inl ⟨rfl, rfl, rfl, rfl⟩
    · exact Or.inr ⟨rfl, rfl, rfl, rfl⟩

/-- 記録された鍵を持つ bunker は、どの version の列も開ける。 -/
theorem unwrapOperational_openFile {d : LegacyDekRow} (hd : d ∈ l.groupDek) (op : AgeIdentity) :
    Bunker.unwrapOperational prim op (openFile (.legacy l)) d.groupId d.version =
      unwrapDek prim d.wrappedOperational op := by
  have hmem : ⟨d.groupId, d.version, recipientOperational, d.wrappedOperational⟩ ∈
      (openFile (.legacy l)).dekWrap :=
    mem_dekWrap_openFile.mpr ⟨d, hd, rfl, rfl, Or.inl ⟨rfl, rfl⟩⟩
  unfold Bunker.unwrapOperational
  rw [dekWrap_eq_some.mpr hmem]
  rfl

theorem opens_of_new (laws : prim.Lawful) (hopens : ∀ d ∈ l.groupDek, l.Opens prim d)
    (hnew : Bunker.new prim (openFile (.legacy l)) key = some inner) {d : LegacyDekRow}
    (hd : d ∈ l.groupDek) : ∃ dek, unwrapDek prim d.wrappedOperational inner.opIdentity = some dek ∧
      OpensTo prim (openFile (.legacy l))
        ⟨d.groupId, d.version, recipientOperational, d.wrappedOperational⟩ dek ∧
      OpensTo prim (openFile (.legacy l))
        ⟨d.groupId, d.version, recipientBackup, d.wrappedBackup⟩ dek := by
  obtain ⟨hm, -⟩ := matches_of_new laws hnew
  obtain ⟨hop, hback⟩ := @recipientOf_openFile prim l
  obtain ⟨dek, op, backup, hrop, hrback, hopen, hopenBack⟩ := hopens d hd
  refine ⟨dek, hopen _ ?_, ⟨op, hop.trans hrop, hopen⟩, ⟨backup, hback.trans hrback, hopenBack⟩⟩
  rw [← hm.identity]
  exact Option.some.inj (hm.operational.symm.trans (hop.trans hrop))

/-- wrap を持つのは、二つの鍵と reader である。 -/
theorem ReadersWrapped.recipients (h : ReadersWrapped (openFile (.legacy l)) db') {d : DekRow}
    (hd : d ∈ (openFile (.legacy l)).groupDek) (r : String) :
    (∃ w ∈ db'.dekWrap, w.groupId = d.groupId ∧ w.dekVersion = d.version ∧ w.recipient = r) ↔
      r = recipientOperational ∨ r = recipientBackup ∨
        HoldsRead (openFile (.legacy l)) r d.groupId := by
  have hrow : (∃ w ∈ db'.dekWrap, w.groupId = d.groupId ∧ w.dekVersion = d.version ∧
      w.recipient = r) ↔ ∃ b, ⟨d.groupId, d.version, r, b⟩ ∈ db'.dekWrap := by
    constructor
    · rintro ⟨w, hw, hg, hv, hr⟩
      exact ⟨w.wrapped, by rw [← hg, ← hv, ← hr]; exact hw⟩
    · rintro ⟨b, hb⟩
      exact ⟨_, hb, rfl, rfl, rfl⟩
  rw [hrow, h]
  obtain ⟨x, hx, hg, hv⟩ := mem_groupDek_openFile.mp hd
  constructor
  · rintro (⟨b, hb⟩ | ⟨hread, -⟩)
    · obtain ⟨y, -, -, -, ⟨hr, -⟩ | ⟨hr, -⟩⟩ := mem_dekWrap_openFile.mp hb
      · exact Or.inl hr
      · exact Or.inr (Or.inl hr)
    · exact Or.inr (Or.inr hread)
  · rintro (hr | hr | hread)
    · exact Or.inl ⟨_, mem_dekWrap_openFile.mpr ⟨x, hx, hg, hv, Or.inl ⟨hr, rfl⟩⟩⟩
    · exact Or.inl ⟨_, mem_dekWrap_openFile.mpr ⟨x, hx, hg, hv, Or.inr ⟨hr, rfl⟩⟩⟩
    · exact Or.inr ⟨hread, hd⟩

/-- 移された wrap も補われた wrap も、列に入っていた DEK に開く。 -/
theorem Filled.opensTo (laws : prim.Lawful) (hopens : ∀ d ∈ l.groupDek, l.Opens prim d)
    (hvalid : EndpointsValid prim (openFile (.legacy l)))
    (hnew : Bunker.new prim (openFile (.legacy l)) key = some inner)
    (h : Filled prim inner.opIdentity (openFile (.legacy l)) db') {x : LegacyDekRow}
    (hx : x ∈ l.groupDek) : ∃ dek, ∀ w ∈ db'.dekWrap, w.groupId = x.groupId →
      w.dekVersion = x.version → OpensTo prim (openFile (.legacy l)) w dek := by
  obtain ⟨dek, hdek, hop, hback⟩ := opens_of_new laws hopens hnew hx
  refine ⟨dek, fun w hw hg hv => ?_⟩
  rcases h.added w hw with hold | ⟨⟨i, hi, he, -⟩, -, dek', recipient, seed, hu, hrec, hwrapped⟩
  · obtain ⟨y, hy, hyg, hyv, hcol⟩ := mem_dekWrap_openFile.mp hold
    obtain rfl : y = x := Table.eq_of_conflict hy hx ⟨hyg.trans hg, hyv.trans hv⟩
    rcases hcol with ⟨hr, hb⟩ | ⟨hr, hb⟩
    · obtain ⟨r, hrec, hopen⟩ := hop
      exact ⟨r, hr ▸ hrec, hb ▸ hopen⟩
    · obtain ⟨r, hrec, hopen⟩ := hback
      exact ⟨r, hr ▸ hrec, hb ▸ hopen⟩
  · rw [hg, hv, unwrapOperational_openFile hx, hdek] at hu
    obtain rfl := Option.some.inj hu
    obtain ⟨hneOp, hneBack, -⟩ := hvalid i hi
    refine ⟨recipient, ?_, fun key hkey => ?_⟩
    · unfold recipientOf
      rw [if_neg (he ▸ hneOp), if_neg (he ▸ hneBack), hrec]
    · rw [hwrapped, ← hkey]
      exact unwrapDek_wrapDek laws seed dek key

/-- 足りない wrap の無くなった database は、移行を終えている。 -/
theorem upgraded_of_filled (laws : prim.Lawful) (hopens : ∀ d ∈ l.groupDek, l.Opens prim d)
    (hvalid : EndpointsValid prim (openFile (.legacy l)))
    (hnew : Bunker.new prim (openFile (.legacy l)) key = some inner)
    (h : Filled prim inner.opIdentity (openFile (.legacy l)) db')
    (hplaces : ReadersWrapped (openFile (.legacy l)) db') : Upgraded prim l db' := by
  have hwraps : WrapsMatchAcl prim db' := by
    intro d hd
    rw [h.groupDek] at hd
    obtain ⟨x, hx, hg, hv⟩ := mem_groupDek_openFile.mp hd
    obtain ⟨dek, hdek⟩ := h.opensTo laws hopens hvalid hnew hx
    refine ⟨fun r => ?_, dek, fun w hw hwg hwv => ?_⟩
    · rw [hplaces.recipients hd, h.holdsRead]
    · obtain ⟨recipient, hrec, hopen⟩ := hdek w hw (hwg.trans hg.symm) (hwv.trans hv.symm)
      exact ⟨recipient, (recipientOf_congr h.metadata _).trans hrec, hopen⟩
  have htables : ∃ m t hw, db' = (l.migrate.withMeta m).withWraps t hw := by
    obtain ⟨m, hm, -⟩ := openFile_legacy l
    have honly := h.only
    rw [hm] at honly
    exact ⟨m, honly⟩
  have hdeks : ∀ g v, ⟨g, v⟩ ∈ db'.groupDek ↔ ∃ d ∈ l.groupDek, d.groupId = g ∧ d.version = v :=
    fun g v => by rw [h.groupDek, mem_groupDek_openFile]
  have hop : ∀ g v b, ⟨g, v, recipientOperational, b⟩ ∈ db'.dekWrap ↔
      ∃ d ∈ l.groupDek, d.groupId = g ∧ d.version = v ∧ d.wrappedOperational = b := by
    intro g v b
    rw [h.mem_reserved hvalid (Or.inl rfl), mem_dekWrap_openFile]
    simp [show recipientOperational ≠ recipientBackup by decide]
  have hback : ∀ g v b, ⟨g, v, recipientBackup, b⟩ ∈ db'.dekWrap ↔
      ∃ d ∈ l.groupDek, d.groupId = g ∧ d.version = v ∧ d.wrappedBackup = b := by
    intro g v b
    rw [h.mem_reserved hvalid (Or.inr rfl), mem_dekWrap_openFile]
    simp [show recipientBackup ≠ recipientOperational by decide]
  obtain ⟨m, t, hw, rfl⟩ := htables
  exact ⟨rfl, rfl, rfl, rfl, rfl, rfl, hdeks, hop, hback, hwraps⟩

theorem openDb_openFile (l : LegacyDb) (hmeta : db'.metadata = (openFile (.legacy l)).metadata) :
    openDb db' = db' := by
  refine openDb_eq_self (fun hinit => ?_)
    ⟨_, (metaGet_congr hmeta _).trans metaGet_insertMetaOrIgnore_self⟩
  rw [isInitialized, metaGet_congr hmeta] at hinit
  rw [metaGet_congr hmeta]
  exact Option.ne_none_iff_exists'.mp (stamped_openFile (.legacy l) hinit)

/-- 途中で止まったかもしれない起動を、順に繰り返した後の database。 -/
def restarts (prim : Primitives) (inner : Inner) (db : Db) (runs : List (Ambient × List Bool)) : Db :=
  runs.foldl (fun db r =>
    ((Statements.backfillReaderWraps prim inner r.1).run ⟨openDb db, r.2⟩).2.data) db

theorem Filled.restarts (hvalid : EndpointsValid prim (openFile (.legacy l)))
    (runs : List (Ambient × List Bool)) : Filled prim inner.opIdentity (openFile (.legacy l))
      (restarts prim inner (openFile (.legacy l)) runs) := by
  induction runs using List.reverseRecOn with
  | nil => exact .refl _
  | append_singleton runs r ih =>
    unfold SecretBunker.restarts
    rw [List.foldl_append]
    show Filled _ _ _ ((Statements.backfillReaderWraps prim inner r.1).run
      ⟨openDb (SecretBunker.restarts prim inner (openFile (.legacy l)) runs), r.2⟩).2.data
    rw [openDb_openFile l ih.metadata]
    exact ih.interrupted hvalid r.1 r.2

/--
**v1 の database の移行は、v2 の不変条件を打ち立てる。**

開いて backfill を済ませると、表はそのままで、二つの列は行になり、どの version の wrap も宛先と DEK が揃う。
もう一度開いて backfill しても何も変わらず、0 を返す。途中で何度止まっても、やり直せば同じ場所に wrap が揃う。
-/
theorem upgrade_establishes_wraps (laws : prim.Lawful) (hopens : ∀ d ∈ l.groupDek, l.Opens prim d)
    (hids : ∀ i ∈ l.identity, EndpointValid prim i.endpointId)
    (hnew : Bunker.new prim (openFile (.legacy l)) key = some inner) (amb : Ambient) :
    ∃ n db', (Statements.backfillReaderWraps prim inner amb).run (.calm (openFile (.legacy l))) =
        (some n, .calm db') ∧ Upgraded prim l db' ∧
      (openFile (.current db') = db' ∧ ∀ amb',
        (Statements.backfillReaderWraps prim inner amb').run (.calm db') = (some 0, .calm db')) ∧
      ∀ runs amb', ∃ m db'', (Statements.backfillReaderWraps prim inner amb').run
          (.calm (openDb (restarts prim inner (openFile (.legacy l)) runs))) = (some m, .calm db'') ∧
        Upgraded prim l db'' ∧
        ∀ g v r, (∃ b, ⟨g, v, r, b⟩ ∈ db''.dekWrap) ↔ ∃ b, ⟨g, v, r, b⟩ ∈ db'.dekWrap := by
  have hvalid : EndpointsValid prim (openFile (.legacy l)) := by
    obtain ⟨t, ht, -⟩ := openFile_legacy l
    rw [ht]
    exact hids
  have hopen : ∀ d ∈ (openFile (.legacy l)).groupDek, ∃ dek, Bunker.unwrapOperational prim
      inner.opIdentity (openFile (.legacy l)) d.groupId d.version = some dek := by
    intro d hd
    obtain ⟨x, hx, hg, hv⟩ := mem_groupDek_openFile.mp hd
    obtain ⟨dek, hdek, -⟩ := opens_of_new laws hopens hnew hx
    rw [← hg, ← hv, unwrapOperational_openFile hx]
    exact ⟨dek, hdek⟩
  obtain ⟨db', hrun, hfill, hall⟩ := (Filled.refl _).completes hvalid hopen amb
  refine ⟨_, db', hrun, upgraded_of_filled laws hopens hvalid hnew hfill hall,
    ⟨openDb_openFile l hfill.metadata, fun amb' => ?_⟩, fun runs amb' => ?_⟩
  · have hnone : missingReaderWraps db' = [] := by
      refine List.eq_nil_iff_forall_not_mem.mpr fun ⟨g, v, e⟩ hx => ?_
      obtain ⟨hread, hdek, hmissing⟩ := mem_missingReaderWraps.mp hx
      rw [hfill.holdsRead] at hread
      rw [hfill.groupDek] at hdek
      obtain ⟨b, hb⟩ := (hall g v e).mpr (Or.inr ⟨hread, hdek⟩)
      exact hmissing b hb
    have hagain := @Statements.backfillReaderWraps_calm prim inner amb' db' db' (by rw [hnone]; rfl)
    rw [hagain, hnone]
    rfl
  · have hmid : Filled prim inner.opIdentity (openFile (.legacy l))
        (restarts prim inner (openFile (.legacy l)) runs) := .restarts hvalid runs
    obtain ⟨db'', hrun', hfill', hall'⟩ := hmid.completes hvalid hopen amb'
    rw [openDb_openFile l hmid.metadata]
    refine ⟨_, db'', hrun', upgraded_of_filled laws hopens hvalid hnew hfill' hall', fun g v r => ?_⟩
    rw [hall', hall]

/-- `g` に DEK の version が二つあり、`bob` だけが READ を持つ v1 の database。 -/
def sampleLegacy : LegacyDb where
  metadata := ⟨[⟨"operational_pubkey", "o"⟩, ⟨"backup_pubkey", "b"⟩, ⟨"schema_version", "1"⟩], by decide⟩
  identity := ⟨[⟨1, samplePeer 'a', "admin", true⟩, ⟨2, samplePeer 'b', "bob", false⟩], by decide⟩
  secretGroup := .singleton ⟨1, "g"⟩
  groupAcl := ⟨[⟨2, 1, permRead⟩], List.pairwise_singleton _ _⟩
  groupDek := ⟨[1, 2].map fun v => ⟨1, v,
    wrapDek plain [] ((sampleAmbient (UInt8.ofNat v)).dek 0) ⟨"o"⟩,
    wrapDek plain [] ((sampleAmbient (UInt8.ofNat v)).dek 0) ⟨"b"⟩⟩, by decide⟩
  secret := Table.empty
  secretVersion := Table.empty
  auditLog := []
  aclIdentity := fun _ h => ⟨_, List.mem_cons_of_mem _ (List.mem_singleton_self _), by
    cases List.mem_singleton.mp h
    rfl⟩
  aclGroup := fun _ h => ⟨_, List.mem_singleton_self _, by cases List.mem_singleton.mp h; rfl⟩
  dekGroup := fun _ h => ⟨_, List.mem_singleton_self _, by
    obtain ⟨v, -, rfl⟩ := List.mem_map.mp h
    rfl⟩
  secretInGroup := Table.References.empty
  versionOfSecret := Db.empty.versionOfSecret

theorem upgrade_establishes_wraps_sample :
    ∃ n db', (Statements.backfillReaderWraps plain sampleInner (sampleAmbient 7)).run
      (.calm (openFile (.legacy sampleLegacy))) = (some n, .calm db') ∧
        Upgraded plain sampleLegacy db' := by
  have hopens : ∀ d ∈ sampleLegacy.groupDek, sampleLegacy.Opens plain d := by
    intro d hd
    obtain ⟨v, -, rfl⟩ := List.mem_map.mp hd
    refine ⟨(sampleAmbient (UInt8.ofNat v)).dek 0, ⟨"o"⟩, ⟨"b"⟩, rfl, rfl, ?_, ?_⟩
    · rintro key hkey
      rw [← hkey]
      exact unwrapDek_wrapDek plain_lawful [] _ key
    · rintro key hkey
      rw [← hkey]
      exact unwrapDek_wrapDek plain_lawful [] _ key
  have hids : ∀ i ∈ sampleLegacy.identity, EndpointValid plain i.endpointId := by
    show ∀ i ∈ [_, _], _
    rw [List.forall_mem_cons, List.forall_mem_singleton]
    exact ⟨⟨by decide, by decide, ⟨"a"⟩, by decide⟩, by decide, by decide, ⟨"b"⟩, by decide⟩
  obtain ⟨n, db', hrun, hup, -⟩ := upgrade_establishes_wraps plain_lawful hopens hids
    (show Bunker.new plain _ ⟨"o"⟩ = some sampleInner by decide) (sampleAmbient 7)
  exact ⟨n, db', hrun, hup⟩

end Legacy

end SecretBunker
