import SecretBunker.Keys.Handle

/-!
# 鍵の wrap と ACL の不変条件

登録された DEK の version ごとに、wrap の宛先は operational、backup と READ を持つ
identity にちょうど一致し、どの wrap も同じ DEK を宛先のいまの鍵に包んでいる。
-/

namespace SecretBunker

open Relational Store

variable {prim : Primitives} {db db' : Db}

/-- 権威 node の database の、鍵の不変条件。 -/
structure KeyWrap (prim : Primitives) (db : Db) : Prop where
  endpoints : EndpointsHex db
  /-- どの group にも DEK がある。 -/
  keyed : ∀ g ∈ db.secretGroup, ∃ v, ⟨g.id, v⟩ ∈ db.groupDek
  /-- 登録されていない version の wrap は無い。 -/
  registered : ∀ w ∈ db.dekWrap, ⟨w.groupId, w.dekVersion⟩ ∈ db.groupDek
  recipients : ∀ {gid v}, ⟨gid, v⟩ ∈ db.groupDek →
    ∀ r, (∃ b, ⟨gid, v, r, b⟩ ∈ db.dekWrap) ↔ Entitled db gid r
  opens : ∀ {gid v}, ⟨gid, v⟩ ∈ db.groupDek →
    ∃ dek, ∀ r b, ⟨gid, v, r, b⟩ ∈ db.dekWrap → WrappedAs prim db dek r b

namespace KeyWrap

/-- 登録された version の operational の wrap は、記録された鍵の持ち主が開ける。 -/
theorem operational_opens (laws : prim.Lawful) (h : KeyWrap prim db) {gid v : Nat}
    (hv : ⟨gid, v⟩ ∈ db.groupDek) {dek : Dek}
    (hdek : ∀ r b, ⟨gid, v, r, b⟩ ∈ db.dekWrap → WrappedAs prim db dek r b) {key : AgeIdentity}
    (hkey : recipientOf prim db recipientOperational = some (prim.toPublic key)) :
    ∃ b, Store.dekWrap db gid v recipientOperational = some b ∧ unwrapDek prim b key = some dek := by
  obtain ⟨b, hb⟩ := (h.recipients hv recipientOperational).mpr (Or.inl rfl)
  obtain ⟨seed, recipient, hrec, rfl⟩ := hdek _ b hb
  obtain rfl := Option.some.inj (hrec.symm.trans hkey)
  exact ⟨_, dekWrap_eq_some.mpr hb, unwrapDek_wrapDek laws seed dek key⟩

/-- operational の wrap から開いた DEK は、その version のどの wrap にも入っている。 -/
theorem wrapped_of_unwrapOperational (laws : prim.Lawful) (h : KeyWrap prim db) {gid v : Nat}
    (hv : ⟨gid, v⟩ ∈ db.groupDek) {op : AgeIdentity} {dek : Dek}
    (hu : Bunker.unwrapOperational prim op db gid v = some dek) :
    ∀ r b, ⟨gid, v, r, b⟩ ∈ db.dekWrap → WrappedAs prim db dek r b := by
  obtain ⟨b, hb, hu⟩ := Option.bind_eq_some_iff.mp hu
  obtain ⟨dek', hdek⟩ := h.opens hv
  rw [(hdek _ b (dekWrap_eq_some.mp hb)).eq_of_unwrap laws hu]
  exact hdek

theorem not_wrapped_of_absent (h : KeyWrap prim db) {gid v : Nat} {e : String} {b : Bytes}
    (hlen : e.length = 64) (habs : ¬ HoldsRead db e gid) : ⟨gid, v, e, b⟩ ∉ db.dekWrap := by
  intro hw
  rcases (h.recipients (h.registered _ hw) e).mp ⟨b, hw⟩ with he | he | he
  · exact ne_operational_of_length hlen he
  · exact ne_backup_of_length hlen he
  · exact habs he

end KeyWrap

/-! ## `Turn` で保たれる -/

theorem KeyStep.version_mono {gid v : Nat} (h : KeyStep prim db db' gid)
    (hv : ⟨gid, v⟩ ∈ db.groupDek) : ⟨gid, v⟩ ∈ db'.groupDek := by
  cases h with
  | keep _ versions _ => exact (versions v).mpr hv
  | gain _ _ _ _ _ versions _ _ _ => exact (versions v).mpr hv
  | rotate _ _ _ _ _ _ _ versions _ _ => exact (versions v).mpr (Or.inl hv)

section Step

variable {gid v : Nat}

theorem entitled_congr (h : ∀ e, HoldsRead db' e gid ↔ HoldsRead db e gid) (r : String) :
    Entitled db' gid r ↔ Entitled db gid r := by
  unfold Entitled
  rw [h]

theorem KeyStep.registered (h : KeyStep prim db db' gid) (hk : KeyWrap prim db) {w : WrapRow}
    (hw : w ∈ db'.dekWrap) (hg : w.groupId = gid) : ⟨gid, w.dekVersion⟩ ∈ db'.groupDek := by
  have hmono := h.version_mono (v := w.dekVersion)
  have hold : w ∈ db.dekWrap → ⟨gid, w.dekVersion⟩ ∈ db'.groupDek := fun hm =>
    hmono (hg ▸ hk.registered w hm)
  cases h with
  | keep _ _ wraps => exact hold ((wraps w hg).mp hw)
  | gain e new _ _ _ _ wraps covers _ =>
    rcases (wraps w hg).mp hw with ⟨hm, -⟩ | ⟨p, hp, rfl⟩
    · exact hold hm
    · exact hmono ((covers p.1).mp ⟨p.2, hp⟩)
  | rotate lost u dek new _ _ _ versions wraps _ =>
    rcases (wraps w hg).mp hw with ⟨hm, -⟩ | ⟨p, -, rfl⟩
    · exact hold hm
    · exact (versions u).mpr (Or.inr rfl)

/-- 新しい version より前に、その version の wrap は無い。 -/
theorem no_wrap_at_new (hk : KeyWrap prim db) (hnew : ∀ u, ⟨gid, u⟩ ∈ db.groupDek → u < v)
    {r : String} {b : Bytes} : ⟨gid, v, r, b⟩ ∉ db.dekWrap :=
  fun hw => Nat.lt_irrefl _ (hnew v (hk.registered _ hw))

/-- 一歩の後も、wrap は資格のある者にだけある。 -/
theorem KeyStep.recipients (h : KeyStep prim db db' gid) (hk : KeyWrap prim db)
    (hv : ⟨gid, v⟩ ∈ db'.groupDek) (r : String) :
    (∃ b, ⟨gid, v, r, b⟩ ∈ db'.dekWrap) ↔ Entitled db' gid r := by
  cases h with
  | keep readers versions wraps =>
    rw [entitled_congr readers, ← hk.recipients ((versions v).mp hv) r]
    exact exists_congr fun b => wraps _ rfl
  | gain e new length absent readers versions wraps covers _ =>
    have hv := (versions v).mp hv
    have hent : Entitled db' gid r ↔ Entitled db gid r ∨ r = e := by
      unfold Entitled
      rw [readers, or_assoc, or_assoc]
    rw [hent, ← hk.recipients hv r]
    constructor
    · rintro ⟨b, hb⟩
      rcases (wraps _ rfl).mp hb with ⟨hm, -⟩ | ⟨p, -, hp⟩
      · exact Or.inl ⟨b, hm⟩
      · exact Or.inr (WrapRow.mk.inj hp).2.2.1
    · rintro (⟨b, hb⟩ | rfl)
      · by_cases hre : r = e
        · exact absurd (hre ▸ hb) (hk.not_wrapped_of_absent length absent)
        · exact ⟨b, (wraps _ rfl).mpr (Or.inl ⟨hb, fun hc => hre hc.2⟩)⟩
      · obtain ⟨b, hb⟩ := (covers v).mpr hv
        exact ⟨b, (wraps _ rfl).mpr (Or.inr ⟨(v, b), hb, rfl⟩)⟩
  | rotate lost u dek new held readers newest versions wraps full =>
    by_cases hu : v = u
    · subst hu
      rw [← full.recipients r]
      refine exists_congr fun b => (wraps _ rfl).trans ?_
      constructor
      · rintro (⟨hm, -⟩ | ⟨p, hp, he⟩)
        · exact absurd hm (no_wrap_at_new hk newest)
        · obtain ⟨-, -, hr, hb⟩ := WrapRow.mk.inj he
          rw [hr, hb]
          exact hp
      · exact fun hp => Or.inr ⟨(r, b), hp, rfl⟩
    · have hv : ⟨gid, v⟩ ∈ db.groupDek := ((versions v).mp hv).resolve_right hu
      have hkept : (∃ b, ⟨gid, v, r, b⟩ ∈ db'.dekWrap) ↔
          (∃ b, ⟨gid, v, r, b⟩ ∈ db.dekWrap) ∧ some r ≠ lost := by
        constructor
        · rintro ⟨b, hb⟩
          rcases (wraps _ rfl).mp hb with ⟨hm, hl⟩ | ⟨p, -, he⟩
          · exact ⟨⟨b, hm⟩, hl⟩
          · exact absurd (WrapRow.mk.inj he).2.1 hu
        · rintro ⟨⟨b, hb⟩, hl⟩
          exact ⟨b, (wraps _ rfl).mpr (Or.inl ⟨hb, hl⟩)⟩
      rw [hkept, hk.recipients hv r]
      have hlen : ∀ e, lost = some e → e.length = 64 := fun e he =>
        length_of_holdsRead hk.endpoints (held e he).1
      unfold Entitled
      rw [readers v hv]
      constructor
      · rintro ⟨h | h | h, hl⟩
        · exact Or.inl h
        · exact Or.inr (Or.inl h)
        · exact Or.inr (Or.inr ⟨h, hl⟩)
      · rintro (rfl | rfl | ⟨h, hl⟩)
        · exact ⟨Or.inl rfl, fun hc => ne_operational_of_length (hlen _ hc.symm) rfl⟩
        · exact ⟨Or.inr (Or.inl rfl), fun hc => ne_backup_of_length (hlen _ hc.symm) rfl⟩
        · exact ⟨Or.inr (Or.inr h), hl⟩

/-- 前からある version の DEK は変わらず、新しい wrap にも同じ DEK が入る。 -/
theorem KeyStep.opens_of_old (laws : prim.Lawful) (h : KeyStep prim db db' gid)
    (hr : ∀ r, recipientOf prim db' r = recipientOf prim db r)
    (hv : ⟨gid, v⟩ ∈ db.groupDek) {dek : Dek}
    (hdek : ∀ r b, ⟨gid, v, r, b⟩ ∈ db.dekWrap → WrappedAs prim db dek r b) :
    ∀ r b, ⟨gid, v, r, b⟩ ∈ db'.dekWrap → WrappedAs prim db' dek r b := by
  intro r b hb
  cases h with
  | keep _ _ wraps => exact (hdek r b ((wraps _ rfl).mp hb)).mono hr
  | gain e new _ _ _ _ wraps _ opened =>
    rcases (wraps _ rfl).mp hb with ⟨hm, -⟩ | ⟨p, hp, he⟩
    · exact (hdek r b hm).mono hr
    · obtain ⟨-, hpv, hpr, hpb⟩ := WrapRow.mk.inj he
      obtain ⟨op, dek', hu, hwrapped⟩ := opened p hp
      rw [← hpv] at hu
      obtain ⟨b₀, hb₀, hu⟩ := Option.bind_eq_some_iff.mp hu
      have hsame : dek' = dek := (hdek _ b₀ (dekWrap_eq_some.mp hb₀)).eq_of_unwrap laws hu
      rw [hpr, hpb, ← hsame]
      exact hwrapped
  | rotate lost u _ new _ _ newest _ wraps _ =>
    rcases (wraps _ rfl).mp hb with ⟨hm, -⟩ | ⟨p, -, he⟩
    · exact (hdek r b hm).mono hr
    · have hvu := (WrapRow.mk.inj he).2.1
      exact absurd (newest v hv) (hvu ▸ Nat.lt_irrefl v)

/-- 一歩の後も、version ごとの wrap は同じ DEK を包む。 -/
theorem KeyStep.opens (laws : prim.Lawful) (h : KeyStep prim db db' gid) (hk : KeyWrap prim db)
    (hr : ∀ r, recipientOf prim db' r = recipientOf prim db r) (hv : ⟨gid, v⟩ ∈ db'.groupDek) :
    ∃ dek, ∀ r b, ⟨gid, v, r, b⟩ ∈ db'.dekWrap → WrappedAs prim db' dek r b := by
  by_cases hold : ⟨gid, v⟩ ∈ db.groupDek
  · obtain ⟨dek, hdek⟩ := hk.opens hold
    exact ⟨dek, h.opens_of_old laws hr hold hdek⟩
  · cases h with
    | keep _ versions _ => exact absurd ((versions v).mp hv) hold
    | gain _ _ _ _ _ versions _ _ _ => exact absurd ((versions v).mp hv) hold
    | rotate lost u dek new _ _ newest versions wraps full =>
      obtain rfl := ((versions v).mp hv).resolve_left hold
      refine ⟨dek, fun r b hb => ?_⟩
      rcases (wraps _ rfl).mp hb with ⟨hm, -⟩ | ⟨p, hp, he⟩
      · exact absurd hm (no_wrap_at_new hk newest)
      · obtain ⟨-, -, hpr, hpb⟩ := WrapRow.mk.inj he
        rw [hpr, hpb]
        exact full.wrapped p hp

end Step

theorem KeyWrap.turn (laws : prim.Lawful) (hk : KeyWrap prim db) (h : Turn prim db db') :
    KeyWrap prim db' where
  endpoints := h.endpoints
  keyed := by
    intro g hg
    rcases h.keyed g hg with hg | hv
    · obtain ⟨v, hv⟩ := hk.keyed g hg
      exact ⟨v, (h.keys g.id).version_mono hv⟩
    · exact hv
  registered := fun w hw => (h.keys w.groupId).registered hk hw rfl
  recipients := fun hv => (h.keys _).recipients hk hv
  opens := fun hv => (h.keys _).opens laws hk h.recipients hv

/-! ## 最初の database -/

theorem init_spec {op backup endpoint name : String} {db₀ : Db}
    (h : Node.init op backup endpoint name = some db₀) :
    ∃ m t ht, db₀ = (Db.empty.withMeta m).withIdentities t ht ∧
      ∀ i ∈ t, i.endpointId = endpoint := by
  unfold Node.init Store.init at h
  split at h
  · cases h
  · obtain ⟨i, t, ht, hi, -, -, hdb, hmem⟩ := addIdentity_spec h
    refine ⟨_, t, ht, hdb, fun j hj => ?_⟩
    rcases (hmem j).mp hj with hj | rfl
    · exact absurd hj Table.mem_empty
    · exact hi

theorem keyWrap_init {op backup endpoint name : String} {db₀ : Db} (hlen : endpoint.length = 64)
    (h : Node.init op backup endpoint name = some db₀) : KeyWrap prim db₀ := by
  obtain ⟨m, t, ht, rfl, hend⟩ := init_spec h
  exact ⟨fun i hi => (congrArg String.length (hend i hi)).trans hlen,
    fun g hg => absurd hg Table.mem_empty, fun w hw => absurd hw Table.mem_empty,
    fun hv => absurd hv Table.mem_empty, fun hv => absurd hv Table.mem_empty⟩

/-! ## recover -/

/-- `recover` が成功したとき、operational の wrap だけが新しい鍵へ包み直されている。 -/
theorem recover_spec {amb : Ambient} {backup : AgeIdentity} {pubkey : String}
    (h : Node.recover prim amb db backup pubkey = some db') :
    ∃ newOp rewrapped, prim.parseAgeRecipient pubkey = some newOp ∧
      Recovered db db' rewrapped newOp.bech32 ∧
      (∀ x, x ∈ rewrapped.map (fun x => (x.1, x.2.1)) ↔
        ∃ b, ⟨x.1, x.2, recipientBackup, b⟩ ∈ db.dekWrap) ∧
      ∀ x ∈ rewrapped, ∃ b dek seed, ⟨x.1, x.2.1, recipientBackup, b⟩ ∈ db.dekWrap ∧
        unwrapDek prim b backup = some dek ∧ x.2.2 = wrapDek prim seed dek newOp := by
  unfold Node.recover at h
  obtain ⟨newOp, hnew, h⟩ := Option.bind_eq_some_iff.mp h
  split at h
  · cases h
  · obtain ⟨rewrapped, hmap, h⟩ := Option.bind_eq_some_iff.mp h
    have hone : ∀ (w x : Nat × Nat × Bytes), ((unwrapDek prim w.2.2 backup).map fun dek =>
        (w.1, w.2.1, wrapDek prim (amb.seed w.1 w.2.1 recipientOperational) dek newOp)) = some x →
        ∃ dek, unwrapDek prim w.2.2 backup = some dek ∧
          x = (w.1, w.2.1, wrapDek prim (amb.seed w.1 w.2.1 recipientOperational) dek newOp) := by
      intro w x hx
      obtain ⟨dek, hdek, rfl⟩ := Option.map_eq_some_iff.mp hx
      exact ⟨dek, hdek, rfl⟩
    have hkeys : rewrapped.map (fun x => (x.1, x.2.1)) =
        (allWrapsForRecipient db recipientBackup).map fun w => (w.1, w.2.1) := by
      refine map_of_mapM (fun w x hx => ?_) hmap
      obtain ⟨_, _, rfl⟩ := hone w x hx
      rfl
    have hmem : ∀ x, x ∈ rewrapped.map (fun x => (x.1, x.2.1)) ↔
        ∃ b, ⟨x.1, x.2, recipientBackup, b⟩ ∈ db.dekWrap := by
      intro x
      rw [hkeys, List.mem_map]
      constructor
      · rintro ⟨⟨g, v, b⟩, hw, rfl⟩
        exact ⟨b, mem_allWrapsForRecipient.mp hw⟩
      · rintro ⟨b, hb⟩
        exact ⟨(x.1, x.2, b), mem_allWrapsForRecipient.mpr hb, rfl⟩
    have hnd : (rewrapped.map fun x => (x.1, x.2.1)).Nodup := by
      rw [hkeys]
      refine ((perm_sortOn _ _).map _).nodup_iff.mpr ?_
      rw [List.map_map]
      unfold List.Nodup
      rw [List.pairwise_map]
      refine (db.dekWrap.unique.filter _).imp_of_mem ?_
      intro a b ha hb hne he
      simp only [List.mem_filter, beq_iff_eq] at ha hb
      obtain ⟨hg, hv⟩ := Prod.mk.inj he
      exact hne ⟨hg, hv, ha.2.trans hb.2.symm⟩
    refine ⟨newOp, rewrapped, hnew, recovered_applyRecovery hnd h, hmem, fun x hx => ?_⟩
    obtain ⟨⟨g, v, b⟩, hw, hx⟩ := (mem_of_mapM hmap).mp hx
    obtain ⟨dek, hdek, rfl⟩ := hone _ x hx
    exact ⟨b, dek, _, mem_allWrapsForRecipient.mp hw, hdek, rfl⟩

section Recover

variable {amb : Ambient} {backup : AgeIdentity} {pubkey : String}

/-- 新しい鍵に包み直した後も、どの version の DEK も元のままである。 -/
theorem recover_opens (laws : prim.Lawful) (hk : KeyWrap prim db)
    (h : Node.recover prim amb db backup pubkey = some db') {gid v : Nat}
    (hv : ⟨gid, v⟩ ∈ db.groupDek) {dek : Dek}
    (hdek : ∀ r b, ⟨gid, v, r, b⟩ ∈ db.dekWrap → WrappedAs prim db dek r b) :
    ∀ r b, ⟨gid, v, r, b⟩ ∈ db'.dekWrap → WrappedAs prim db' dek r b := by
  obtain ⟨newOp, rewrapped, hparse, ⟨t, hw, rfl, ht⟩, hkeys, hopen⟩ := recover_spec h
  have hmeta : ∀ r, r ≠ recipientOperational →
      recipientOf prim ((db.withWraps t hw).upsertMeta "operational_pubkey" newOp.bech32) r =
        recipientOf prim db r := by
    intro r hr
    unfold recipientOf Node.recordedRecipient
    rw [if_neg hr, if_neg hr, metaGet_upsertMeta, if_neg (show "backup_pubkey" ≠ _ by decide)]
    rfl
  have hop : recipientOf prim ((db.withWraps t hw).upsertMeta "operational_pubkey" newOp.bech32)
      recipientOperational = some newOp := by
    rw [recipientOf_operational, Node.recordedRecipient, metaGet_upsertMeta, if_pos rfl]
    exact laws.parse_parsed _ _ hparse
  intro r b hb
  rcases (ht _).mp hb with ⟨hm, hne⟩ | ⟨x, hx, he⟩
  · by_cases hr : r = recipientOperational
    · -- 登録された version には backup の wrap があるので、operational の wrap は必ず替わる
      have hback := (hk.recipients hv recipientBackup).mpr (Or.inr (Or.inl rfl))
      exact absurd ⟨hr, (hkeys (gid, v)).mpr hback⟩ hne
    · obtain ⟨seed, recipient, hrec, hb⟩ := hdek r b hm
      exact ⟨seed, recipient, (hmeta r hr).trans hrec, hb⟩
  · obtain ⟨hg, hxv, hr, hb⟩ := WrapRow.mk.inj he
    obtain ⟨b₀, dek', seed, hb₀, hu, hx⟩ := hopen x hx
    rw [← hg, ← hxv] at hb₀
    have hsame : dek' = dek := (hdek _ b₀ hb₀).eq_of_unwrap laws hu
    rw [hr, hb, hx, ← hsame]
    exact ⟨seed, newOp, hop, rfl⟩

/-- recover は `KeyWrap` を保つ。 -/
theorem keyWrap_recover (laws : prim.Lawful) (hk : KeyWrap prim db)
    (h : Node.recover prim amb db backup pubkey = some db') : KeyWrap prim db' := by
  have hopens : ∀ {gid v}, ⟨gid, v⟩ ∈ db.groupDek →
      ∃ dek, ∀ r b, ⟨gid, v, r, b⟩ ∈ db'.dekWrap → WrappedAs prim db' dek r b := by
    intro gid v hv
    obtain ⟨dek, hdek⟩ := hk.opens hv
    exact ⟨dek, recover_opens laws hk h hv hdek⟩
  obtain ⟨newOp, rewrapped, -, ⟨t, hw, rfl, ht⟩, hkeys, hopen⟩ := recover_spec h
  refine ⟨hk.endpoints, hk.keyed, ?_, ?_, hopens⟩
  · intro w hwm
    rcases (ht w).mp hwm with ⟨hm, -⟩ | ⟨x, hx, rfl⟩
    · exact hk.registered w hm
    · obtain ⟨b, _, _, hb, -⟩ := hopen x hx
      exact hk.registered ⟨x.1, x.2.1, recipientBackup, b⟩ hb
  · intro gid v hv r
    show (∃ b, ⟨gid, v, r, b⟩ ∈ t) ↔ Entitled db gid r
    rw [← hk.recipients hv r]
    constructor
    · rintro ⟨b, hb⟩
      rcases (ht _).mp hb with ⟨hm, -⟩ | ⟨x, -, he⟩
      · exact ⟨b, hm⟩
      · rw [(WrapRow.mk.inj he).2.2.1]
        exact (hk.recipients hv _).mpr (Or.inl rfl)
    · rintro ⟨b, hb⟩
      by_cases hc : r = recipientOperational ∧ (gid, v) ∈ rewrapped.map fun x => (x.1, x.2.1)
      · obtain ⟨rfl, hmem⟩ := hc
        obtain ⟨x, hx, he⟩ := List.mem_map.mp hmem
        obtain ⟨hg, hxv⟩ := Prod.mk.inj he
        refine ⟨x.2.2, (ht _).mpr (Or.inr ⟨x, hx, ?_⟩)⟩
        rw [hg, hxv]
      · exact ⟨b, (ht _).mpr (Or.inl ⟨hb, hc⟩)⟩

end Recover

/-! ## 操作の列 -/

/-- 一歩は、`Turn` と `recover` を高々一つずつつないだものである。 -/
theorem step_relation (laws : prim.Lawful) {R : Db → Db → Prop} (refl : ∀ a, R a a)
    (trans : ∀ a b c, R a b → R b c → R a c)
    (turn : ∀ a b, KeyWrap prim a → Turn prim a b → R a b)
    (recover : ∀ a b amb backup pubkey, KeyWrap prim a →
      Node.recover prim amb a backup pubkey = some b → R a b)
    (hk : KeyWrap prim db) (op : Node.Op) (amb : Ambient) :
    R db (Node.step prim db op amb).2 := by
  have hturn : Turn prim db (openDb db) := turn_openDb hk.endpoints
  have hopen := hk.turn laws hturn
  cases op with
  | handle key remote req =>
    unfold Node.step
    dsimp only
    split
    · exact refl db
    · next inner hnew =>
      exact turn _ _ hk (turn_handle laws hk.endpoints (matches_of_new laws hnew).1 remote req)
  | dbGrant group identity perms key =>
    unfold Node.step
    dsimp only
    cases h : Node.dbGrant prim amb (openDb db) group identity perms key with
    | none => exact turn _ _ hk hturn
    | some db' =>
      exact trans _ _ _ (turn _ _ hk hturn)
        (turn _ _ hopen (turn_localEffect hopen.endpoints (localEffect_dbGrant h)))
  | recover backup pubkey =>
    unfold Node.step
    dsimp only
    cases h : Node.recover prim amb (openDb db) backup pubkey with
    | none => exact turn _ _ hk hturn
    | some db' => exact trans _ _ _ (turn _ _ hk hturn) (recover _ _ _ _ _ hopen h)
  | reopen => exact turn _ _ hk hturn

theorem keyWrap_step (laws : prim.Lawful) (db : Db) (op : Node.Op) (amb : Ambient)
    (hk : KeyWrap prim db) : KeyWrap prim (Node.step prim db op amb).2 :=
  step_relation (R := fun a b => KeyWrap prim a → KeyWrap prim b) laws (fun _ h => h)
    (fun _ _ _ hab hbc h => hbc (hab h)) (fun _ _ _ ht h => h.turn laws ht)
    (fun _ _ _ _ _ _ hr h => keyWrap_recover laws h hr) hk op amb hk

theorem keyWrap_exec (laws : prim.Lawful) (hk : KeyWrap prim db) (ops : List (Node.Op × Ambient)) :
    KeyWrap prim (Node.exec prim db ops) :=
  Node.exec_induction prim hk (keyWrap_step laws) ops

/-- 列で行った操作の前後についての関係。 -/
theorem exec_relation (laws : prim.Lawful) {R : Db → Db → Prop} (refl : ∀ a, R a a)
    (trans : ∀ a b c, R a b → R b c → R a c)
    (turn : ∀ a b, KeyWrap prim a → Turn prim a b → R a b)
    (recover : ∀ a b amb backup pubkey, KeyWrap prim a →
      Node.recover prim amb a backup pubkey = some b → R a b)
    (hk : KeyWrap prim db) (ops : List (Node.Op × Ambient)) : R db (Node.exec prim db ops) := by
  have h : R db (Node.exec prim db ops) ∧ KeyWrap prim (Node.exec prim db ops) := by
    refine Node.exec_induction prim (motive := fun d => R db d ∧ KeyWrap prim d) ⟨refl db, hk⟩ ?_ ops
    rintro db' op amb ⟨hR, hk'⟩
    exact ⟨trans _ _ _ hR (step_relation laws refl trans turn recover hk' op amb),
      keyWrap_step laws db' op amb hk'⟩
  exact h.1

/-- wrap は、宛先のいまの鍵を持つ者が開くと `dek` になる。 -/
def OpensTo (prim : Primitives) (db : Db) (w : WrapRow) (dek : Dek) : Prop :=
  ∃ recipient, recipientOf prim db w.recipient = some recipient ∧
    ∀ key, prim.toPublic key = recipient → unwrapDek prim w.wrapped key = some dek

theorem WrappedAs.opensTo (laws : prim.Lawful) {w : WrapRow} {dek : Dek}
    (h : WrappedAs prim db dek w.recipient w.wrapped) : OpensTo prim db w dek := by
  obtain ⟨seed, recipient, hrec, hb⟩ := h
  refine ⟨recipient, hrec, fun key hkey => ?_⟩
  rw [hb, ← hkey]
  exact unwrapDek_wrapDek laws seed dek key

/--
**鍵の wrap と ACL の不変条件。** `init` からどの操作の列を経ても、登録された version ごとに、
wrap の宛先は operational、backup、READ を持つ identity の endpoint にちょうど一致し、
すべて一つの DEK に開く。
-/
theorem wraps_match_acl (laws : prim.Lawful) {op backup endpoint name : String} {db₀ : Db}
    (hlen : endpoint.length = 64) (hinit : Node.init op backup endpoint name = some db₀)
    (ops : List (Node.Op × Ambient)) :
    ∀ d ∈ (Node.exec prim db₀ ops).groupDek,
      (∀ r, (∃ w ∈ (Node.exec prim db₀ ops).dekWrap,
          w.groupId = d.groupId ∧ w.dekVersion = d.version ∧ w.recipient = r) ↔
        r = recipientOperational ∨ r = recipientBackup ∨
          HoldsRead (Node.exec prim db₀ ops) r d.groupId) ∧
      ∃ dek, ∀ w ∈ (Node.exec prim db₀ ops).dekWrap,
        w.groupId = d.groupId → w.dekVersion = d.version →
          OpensTo prim (Node.exec prim db₀ ops) w dek := by
  have hk : KeyWrap prim (Node.exec prim db₀ ops) := keyWrap_exec laws (keyWrap_init hlen hinit) ops
  intro d hd
  refine ⟨fun r => ?_, ?_⟩
  · refine Iff.trans ?_ (hk.recipients hd r)
    constructor
    · rintro ⟨w, hw, hg, hv, hr⟩
      exact ⟨w.wrapped, by rw [← hg, ← hv, ← hr]; exact hw⟩
    · rintro ⟨b, hb⟩
      exact ⟨_, hb, rfl, rfl, rfl⟩
  · obtain ⟨dek, hdek⟩ := hk.opens hd
    refine ⟨dek, fun w hw hg hv => WrappedAs.opensTo laws (hdek _ _ ?_)⟩
    rw [← hg, ← hv]
    exact hw

theorem wraps_match_acl_sample :
    ⟨1, 1⟩ ∈ (Node.exec plain sampleDb (sampleCalls [('a', .createGroup "g")])).groupDek ∧
      ∀ d ∈ (Node.exec plain sampleDb (sampleCalls [('a', .createGroup "g")])).groupDek,
        ∃ dek, ∀ w ∈ (Node.exec plain sampleDb (sampleCalls [('a', .createGroup "g")])).dekWrap,
          w.groupId = d.groupId → w.dekVersion = d.version →
            OpensTo plain (Node.exec plain sampleDb (sampleCalls [('a', .createGroup "g")])) w dek :=
  ⟨by decide, fun d hd => (wraps_match_acl plain_lawful (by decide) init_sampleDb _ d hd).2⟩

end SecretBunker
