import SecretBunker.Store.Mirror

/-!
# 反映の行

`applyGroupSync` が動かす行と動かさない行を、表の行のまま述べる。
見え方（`Applied`）では区別の付かない rowid や version の行まで言えるので、
ほかの group に触れないこと、同じ状態をもう一度写しても何も起きないことがここから出る。

identity の表だけは group をまたいで共有される。ACL は前の行から順に揃えるので、
ある identity が残るかどうかは並び順で決まる。二つの鍵が名前を交換すると、
先の行がもう一方の鍵を古いものとして消し、後の行がそれを新しい id で入れ直す。
-/

namespace SecretBunker

open Relational

namespace Store

variable {db db' : Db}

/-! ## 規則 1 -/

/-- 行を順に揃える間に、古い鍵として消されることがない。 -/
def survives : List AclEntry → Identity → Bool
  | [], _ => true
  | e :: rest, i =>
    !staleName e i && survives rest (Db.renameIdentity e.endpointId e.identityName i)

/-- 残った identity の、揃えた後の行。 -/
def renamed (acl : List AclEntry) (i : Identity) : Identity :=
  acl.foldl (fun i e => Db.renameIdentity e.endpointId e.identityName i) i

@[simp] theorem renamed_cons (e : AclEntry) (rest : List AclEntry) (i : Identity) :
    renamed (e :: rest) i = renamed rest (Db.renameIdentity e.endpointId e.identityName i) := rfl

@[simp] theorem renamed_id (acl : List AclEntry) (i : Identity) : (renamed acl i).id = i.id := by
  induction acl generalizing i with
  | nil => rfl
  | cons e rest ih => simp [ih]

@[simp] theorem renamed_endpointId (acl : List AclEntry) (i : Identity) :
    (renamed acl i).endpointId = i.endpointId := by
  induction acl generalizing i with
  | nil => rfl
  | cons e rest ih => simp [ih]

/-- 消されるのは、名前がほかの endpoint の行に挙がっている identity だけである。 -/
theorem claimed_of_not_survives {acl : List AclEntry} (hn : (acl.map (·.identityName)).Nodup)
    {i : Identity} (h : survives acl i = false) :
    ∃ e ∈ acl, e.identityName = i.name ∧ e.endpointId ≠ i.endpointId := by
  induction acl generalizing i with
  | nil => cases h
  | cons e rest ih =>
    rw [List.map_cons, List.nodup_cons] at hn
    by_cases hstale : staleName e i = true
    · simp only [staleName, Bool.and_eq_true, beq_iff_eq, bne_iff_ne] at hstale
      exact ⟨e, List.mem_cons_self, hstale.1.symm, Ne.symm hstale.2⟩
    · have hrest : survives rest (Db.renameIdentity e.endpointId e.identityName i) = false := by
        simpa [survives, hstale] using h
      obtain ⟨x, hx, hname, hend⟩ := ih hn.2 hrest
      unfold Db.renameIdentity at hname hend
      split at hname
      · -- いま付けた名前は、後の行には現れない
        have hname : x.identityName = e.identityName := hname
        exact absurd (hname ▸ List.mem_map_of_mem hx) hn.1
      · next hne =>
        rw [if_neg hne] at hend
        exact ⟨x, List.mem_cons_of_mem _ hx, hname, hend⟩

theorem renamed_of_agrees {acl : List AclEntry} {i : Identity}
    (h : ∀ e ∈ acl, e.endpointId = i.endpointId → e.identityName = i.name ∧ i.serviceAdmin = false) :
    renamed acl i = i := by
  induction acl with
  | nil => rfl
  | cons e rest ih =>
    have hsame : Db.renameIdentity e.endpointId e.identityName i = i := by
      unfold Db.renameIdentity
      split
      · next he =>
        obtain ⟨hname, hadmin⟩ := h e List.mem_cons_self he.symm
        rw [hname, ← hadmin]
      · rfl
    rw [renamed_cons, hsame]
    exact ih fun x hx => h x (List.mem_cons_of_mem _ hx)

/-- `acl` の identity を順に揃えた表。残った行は id を保ち、ほかの行は新しい id を持つ。 -/
structure Resettled (acl : List AclEntry) (db db' : Db) : Prop where
  kept : ∀ i ∈ db.identity, survives acl i = true → renamed acl i ∈ db'.identity
  origin : ∀ i' ∈ db'.identity,
    (∃ i ∈ db.identity, survives acl i = true ∧ renamed acl i = i') ∨
      (∃ e ∈ acl, e.endpointId = i'.endpointId) ∧
        ∀ i ∈ db.identity, survives acl i = true → i.endpointId ≠ i'.endpointId ∧ i.id ≠ i'.id
  acl : ∀ a, a ∈ db'.groupAcl ↔
    a ∈ db.groupAcl ∧ ∀ i ∈ db.identity, i.id = a.identityId → survives acl i = true

/-- identity の行は改名されて残り、増えるのは endpoint の新しい行だけ。 -/
theorem upsertIdentity_rows {endpoint name : String}
    (h : db.upsertIdentity endpoint name = some db') :
    (∃ t ht, db' = db.withIdentities t ht) ∧
      (∀ i ∈ db.identity, Db.renameIdentity endpoint name i ∈ db'.identity) ∧
      ∀ i' ∈ db'.identity, (∃ i ∈ db.identity, Db.renameIdentity endpoint name i = i') ∨
        endpoint = i'.endpointId ∧
          ∀ i ∈ db.identity, i.endpointId ≠ i'.endpointId ∧ i.id ≠ i'.id := by
  unfold Db.upsertIdentity at h
  split at h
  · split at h
    · cases h
    · next t ht =>
      cases h
      refine ⟨⟨_, _, rfl⟩, fun i hi => (Table.mem_modify ht).mpr ⟨i, hi, rfl⟩, ?_⟩
      exact fun i' hi' => Or.inl ((Table.mem_modify ht).mp hi')
  · next hno =>
    unfold Db.insertIdentity at h
    split at h
    · cases h
    · next t ht =>
      cases h
      have hsame : ∀ i ∈ db.identity, Db.renameIdentity endpoint name i = i :=
        fun i hi => if_neg fun he => hno ⟨i, hi, he⟩
      refine ⟨⟨_, _, rfl⟩, ?_, ?_⟩
      · intro i hi
        rw [hsame i hi]
        exact (Table.mem_insert ht).mpr (Or.inl hi)
      · intro i' hi'
        rcases (Table.mem_insert ht).mp hi' with hi' | rfl
        · exact Or.inl ⟨i', hi', hsame i' hi'⟩
        · refine Or.inr ⟨rfl, fun i hi => ⟨fun he => hno ⟨i, hi, he⟩, fun hid => ?_⟩⟩
          exact nextRowid_not_mem _ (List.mem_map.mpr ⟨i, hi, hid⟩)

variable {e : AclEntry} {gid : Nat}

theorem adoptIdentity_rows (h : adoptIdentity db e = some db') : Resettled [e] db db' := by
  have hmem : ∀ i, i ∈ (db.deleteIdentity (staleName e)).identity ↔
      i ∈ db.identity ∧ survives [e] i = true := by
    intro i
    refine Table.mem_delete.trans ?_
    simp [survives]
  obtain ⟨⟨t, ht, rfl⟩, hkept, horigin⟩ := upsertIdentity_rows h
  refine ⟨fun i hi hs => hkept i ((hmem i).mpr ⟨hi, hs⟩), ?_, ?_⟩
  · intro i' hi'
    rcases horigin i' hi' with ⟨i, hi, rfl⟩ | ⟨he, hfresh⟩
    · exact Or.inl ⟨i, ((hmem i).mp hi).1, ((hmem i).mp hi).2, rfl⟩
    · refine Or.inr ⟨⟨e, List.mem_cons_self, he⟩, ?_⟩
      exact fun i hi hs => hfresh i ((hmem i).mpr ⟨hi, hs⟩)
  · intro a
    show a ∈ db.groupAcl.cascade _ _ _ _ ↔ _
    rw [Table.mem_cascade]
    refine and_congr_right fun _ => forall_congr' fun i => forall_congr' fun _ => ?_
    refine forall_congr' fun _ => ?_
    show staleName e i = false ↔ _
    simp [survives]

theorem Resettled.nil (db : Db) : Resettled [] db db where
  kept := fun _ hi _ => hi
  origin := fun i hi => Or.inl ⟨i, hi, rfl, rfl⟩
  acl := fun _ => ⟨fun ha => ⟨ha, fun _ _ _ => rfl⟩, fun h => h.1⟩

/-- 先頭と残りの ACL をつなぐ。 -/
theorem Resettled.cons {rest : List AclEntry} {mid : Db} (h : Resettled [e] db mid)
    (h' : Resettled rest mid db') : Resettled (e :: rest) db db' := by
  have hsplit : ∀ i, survives (e :: rest) i = true ↔
      survives [e] i = true ∧ survives rest (renamed [e] i) = true := by
    intro i
    simp [survives, renamed]
  refine ⟨?_, ?_, ?_⟩
  · intro i hi hs
    obtain ⟨hone, hrest⟩ := (hsplit i).mp hs
    exact h'.kept _ (h.kept i hi hone) hrest
  · intro i' hi'
    rcases h'.origin i' hi' with ⟨m, hm, hs, rfl⟩ | ⟨⟨x, hx, hxe⟩, hfresh⟩
    · rw [renamed_endpointId, renamed_id]
      rcases h.origin m hm with ⟨i, hi, hone, rfl⟩ | ⟨⟨x, hx, hxe⟩, hfresh⟩
      · exact Or.inl ⟨i, hi, (hsplit i).mpr ⟨hone, hs⟩, rfl⟩
      · refine Or.inr ⟨⟨x, ?_, hxe⟩, fun i hi his => hfresh i hi ((hsplit i).mp his).1⟩
        rw [List.mem_singleton.mp hx]
        exact List.mem_cons_self
    · refine Or.inr ⟨⟨x, List.mem_cons_of_mem _ hx, hxe⟩, fun i hi his => ?_⟩
      obtain ⟨hone, hrest⟩ := (hsplit i).mp his
      have hne := hfresh _ (h.kept i hi hone) hrest
      rwa [renamed_endpointId, renamed_id] at hne
  · intro a
    rw [h'.acl, h.acl, and_assoc]
    refine and_congr_right fun ha => ?_
    constructor
    · rintro ⟨hone, hrest⟩ i hi hid
      refine (hsplit i).mpr ⟨hone i hi hid, ?_⟩
      exact hrest _ (h.kept i hi (hone i hi hid)) ((renamed_id _ i).trans hid)
    · intro hall
      refine ⟨fun i hi hid => ((hsplit i).mp (hall i hi hid)).1, ?_⟩
      intro m hm hid
      rcases h.origin m hm with ⟨i, hi, -, rfl⟩ | ⟨-, hfresh⟩
      · exact ((hsplit i).mp (hall i hi ((renamed_id _ i).symm.trans hid))).2
      · -- 許可の指す identity は残っているので、新しい行の id ではない
        obtain ⟨i, hi, hia⟩ := db.aclIdentity a ha
        exact absurd (hia.trans hid.symm) (hfresh i hi ((hsplit i).mp (hall i hi hia)).1).2

theorem adoptIdentities_rows {acl : List AclEntry} (h : acl.foldlM adoptIdentity db = some db') :
    Resettled acl db db' := by
  induction acl generalizing db with
  | nil =>
    cases h
    exact Resettled.nil _
  | cons e rest ih =>
    rw [List.foldlM_cons] at h
    obtain ⟨mid, hmid, hrest⟩ := Option.bind_eq_some_iff.mp h
    exact (adoptIdentity_rows hmid).cons (ih hrest)

/-! ## 規則の触れない表 -/

/-- 規則 1 と 2 の触れない表。 -/
def besideAcl (db : Db) :=
  (db.metadata, db.secretGroup, db.groupDek, db.secret, db.secretVersion, db.auditLog)

/-- 規則 3 の触れない表。 -/
def besideDeks (db : Db) :=
  (db.metadata, db.identity, db.secretGroup, db.groupAcl, db.secret, db.secretVersion, db.auditLog)

/-- 規則 4 と 5 の触れない表。 -/
def besideSecrets (db : Db) :=
  (db.metadata, db.identity, db.secretGroup, db.groupAcl, db.groupDek, db.auditLog)

theorem besideAcl_adoptIdentity (h : adoptIdentity db e = some db') :
    besideAcl db' = besideAcl db := by
  obtain ⟨⟨t, ht, rfl⟩, -⟩ := upsertIdentity_rows h
  rfl

/-- ほかの group の許可。 -/
def foreignAcl (gid : Nat) (db : Db) : Set AclRow := {a | a ∈ db.groupAcl ∧ a.groupId ≠ gid}

theorem besideAcl_adoptAcl (h : adoptAcl db gid e = some db') :
    (besideAcl db', db'.identity, foreignAcl gid db') =
      (besideAcl db, db.identity, foreignAcl gid db) := by
  obtain ⟨i, -, h⟩ := Option.bind_eq_some_iff.mp h
  obtain ⟨hi, hg, rfl⟩ := upsertAcl_eq_some h
  refine Prod.ext rfl (Prod.ext rfl (Set.ext fun a => and_congr_left fun hne => ?_))
  refine Table.mem_upsert.trans ⟨?_, fun ha => Or.inl ⟨ha, fun hc => hne hc.2⟩⟩
  rintro (⟨ha, -⟩ | rfl)
  · exact ha
  · exact absurd rfl hne

theorem adoptDek_eq_some {own : String} {d : DekEntry} (h : adoptDek db own gid d = some db') :
    besideDeks db' = besideDeks db ∧
      ∀ r, r ∈ db'.groupDek ↔ r ∈ db.groupDek ∨ r = ⟨gid, d.version⟩ := by
  obtain ⟨mid, hmid, h⟩ := Option.bind_eq_some_iff.mp h
  obtain ⟨hw, rfl⟩ := upsertWrap_eq_some h
  unfold Db.insertDekOrIgnore at hmid
  split at hmid
  · cases hmid
    refine ⟨rfl, fun r => ?_⟩
    show r ∈ db.groupDek.insertOrIgnore _ ↔ _
    rw [Table.mem_insertOrIgnore]
    constructor
    · exact Or.imp_right And.left
    · rintro (hr | rfl)
      · exact Or.inl hr
      · by_cases hc : ∀ y ∈ db.groupDek, ¬ Row.Conflict y (⟨gid, d.version⟩ : DekRow)
        · exact Or.inr ⟨rfl, hc⟩
        · -- 衝突する行は、列がすべて鍵なので同じ行である
          simp only [not_forall, not_not] at hc
          obtain ⟨⟨g, v⟩, hy, hg, hv⟩ := hc
          rw [← show g = gid from hg, ← show v = d.version from hv]
          exact Or.inl hy
  · cases hmid

theorem adoptDeks_rows {own : String} {deks : List DekEntry}
    (h : deks.foldlM (fun db d => adoptDek db own gid d) db = some db') (r : DekRow) :
    r ∈ db'.groupDek ↔ r ∈ db.groupDek ∨ r.groupId = gid ∧ ∃ d ∈ deks, d.version = r.version := by
  induction deks generalizing db with
  | nil =>
    cases h
    simp
  | cons d rest ih =>
    rw [List.foldlM_cons] at h
    obtain ⟨mid, hmid, hrest⟩ := Option.bind_eq_some_iff.mp h
    obtain ⟨g, v⟩ := r
    rw [ih hrest, (adoptDek_eq_some hmid).2, List.exists_mem_cons_iff, DekRow.mk.injEq, or_assoc]
    refine or_congr_right ?_
    constructor
    · rintro (⟨rfl, rfl⟩ | ⟨hg, hex⟩)
      · exact ⟨rfl, Or.inl rfl⟩
      · exact ⟨hg, Or.inr hex⟩
    · rintro ⟨hg, hv | hex⟩
      · exact Or.inl ⟨hg, hv.symm⟩
      · exact Or.inr ⟨hg, hex⟩

theorem besideSecrets_replaceSecret {f : FetchedSecret} (h : replaceSecret db gid f = some db') :
    besideSecrets db' = besideSecrets db := by
  obtain ⟨⟨sid, mid⟩, hmid, h⟩ := Option.bind_eq_some_iff.mp h
  obtain ⟨t, hg, hv, -, rfl⟩ := insertSecret_eq_some hmid
  obtain ⟨u, hg', hv', -, rfl⟩ := insertVersion_eq_some h
  rfl

theorem besideSecrets_eraseSecrets (db : Db) (gid : Nat) (names : List String) :
    besideSecrets (names.foldl (fun db name => eraseSecret db gid name) db) = besideSecrets db := by
  induction names generalizing db with
  | nil => rfl
  | cons name rest ih => exact (ih _).trans rfl

theorem mem_insertGroupOrIgnore {name : String}
    (h : groupId (db.insertGroupOrIgnore name) name = some gid) (r : GroupRow) :
    r ∈ (db.insertGroupOrIgnore name).secretGroup ↔ r ∈ db.secretGroup ∨ r = ⟨gid, name⟩ := by
  have hmem : ∀ r, r ∈ (db.insertGroupOrIgnore name).secretGroup ↔ r ∈ db.secretGroup ∨
      (r = db.newGroup name ∧ ∀ y ∈ db.secretGroup, ¬ Row.Conflict y (db.newGroup name)) :=
    fun r => Table.mem_insertOrIgnore
  have hrow := groupId_eq_some.mp h
  constructor
  · intro hr
    rcases (hmem r).mp hr with hr' | ⟨rfl, -⟩
    · exact Or.inl hr'
    · exact Or.inr (Table.eq_of_conflict hr hrow (Or.inr rfl))
  · rintro (hr | rfl)
    · exact (hmem r).mpr (Or.inl hr)
    · exact hrow

/-! ## 行の集まり -/

theorem holding_of_mem {s : SecretRow} (hs : s ∈ db.secret) :
    holding db s.groupId s.name =
      some (s, db.secretVersion.rows.filter (·.secretId == s.id)) := by
  unfold holding
  rw [secretRow_eq_some.mpr ⟨hs, rfl, rfl⟩]
  rfl

theorem mem_of_holding {s : SecretRow} {versions : List VersionRow} {g : Nat} {n : String}
    (h : holding db g n = some (s, versions)) : s ∈ db.secret := by
  obtain ⟨s', hs', he⟩ := Option.map_eq_some_iff.mp h
  cases he
  exact (secretRow_eq_some.mp hs').1

/-- 行が同じなら、secret の行も version の行も同じである。 -/
theorem rows_of_holding {g : Nat} (h : ∀ n, holding db' g n = holding db g n) {s : SecretRow}
    (hg : s.groupId = g) :
    (s ∈ db'.secret ↔ s ∈ db.secret) ∧ (s ∈ db.secret → ∀ v : VersionRow, v.secretId = s.id →
      (v ∈ db'.secretVersion ↔ v ∈ db.secretVersion)) := by
  subst hg
  have hmem : s ∈ db'.secret ↔ s ∈ db.secret := by
    constructor
    · exact fun hs => mem_of_holding ((h s.name).symm.trans (holding_of_mem hs))
    · exact fun hs => mem_of_holding ((h s.name).trans (holding_of_mem hs))
  refine ⟨hmem, fun hs v hv => ?_⟩
  have heq := h s.name
  rw [holding_of_mem hs, holding_of_mem (hmem.mpr hs)] at heq
  have hrows := congrArg (v ∈ ·) (Prod.mk.inj (Option.some.inj heq)).2
  simpa [hv, Table.mem_def] using hrows

/-! ## 反映の全体 -/

section Reconcile

variable {own : String} {state : GroupSyncState} {fetched : List FetchedSecret} {gid : Nat}

/-- 規則ごとの途中の database。 -/
theorem applyGroupSync_steps {changes : List AppliedChange}
    (h : applyGroupSync db own state fetched = some (changes, db')) :
    ∃ gid d₁ d₂ d₃ d₄, groupId (db.insertGroupOrIgnore state.name) state.name = some gid ∧
      (effectiveAcl state.acl).foldlM adoptIdentity (db.insertGroupOrIgnore state.name) = some d₁ ∧
      (effectiveAcl state.acl).foldlM (fun db e => adoptAcl db gid e)
        (d₁.deleteAcl (·.groupId == gid)) = some d₂ ∧
      state.deks.foldlM (fun db d => adoptDek db own gid d) d₂ = some d₃ ∧
      fetched.foldlM (fun db s => replaceSecret db gid s)
        (dropStaleWraps d₃ own gid state.deks) = some d₄ ∧
      db' = (unlistedSecrets d₄ gid state.secrets).foldl
        (fun db name => eraseSecret db gid name) d₄ := by
  obtain ⟨gid, hgid, h⟩ := Option.bind_eq_some_iff.mp h
  obtain ⟨d₁, h₁, h⟩ := Option.bind_eq_some_iff.mp h
  obtain ⟨d₂, h₂, h⟩ := Option.bind_eq_some_iff.mp h
  obtain ⟨d₃, h₃, h⟩ := Option.bind_eq_some_iff.mp h
  obtain ⟨d₄, h₄, h⟩ := Option.bind_eq_some_iff.mp h
  cases h
  exact ⟨gid, d₁, d₂, d₃, d₄, hgid, h₁, h₂, h₃, h₄, rfl⟩

/-- group `gid` を `state` に揃えた database の行。 -/
structure Reconciled (own : String) (state : GroupSyncState) (fetched : List FetchedSecret)
    (gid : Nat) (db db' : Db) : Prop where
  applied : Applied own state fetched gid db db'
  metadata : db'.metadata = db.metadata
  log : db'.auditLog = db.auditLog
  groups : ∀ r, r ∈ db'.secretGroup ↔ r ∈ db.secretGroup ∨ r = ⟨gid, state.name⟩
  kept : ∀ i ∈ db.identity, survives (effectiveAcl state.acl) i = true →
    renamed (effectiveAcl state.acl) i ∈ db'.identity
  origin : ∀ i' ∈ db'.identity,
    (∃ i ∈ db.identity, survives (effectiveAcl state.acl) i = true ∧
      renamed (effectiveAcl state.acl) i = i') ∨
    (∃ e ∈ effectiveAcl state.acl, e.endpointId = i'.endpointId) ∧
      ∀ i ∈ db.identity, survives (effectiveAcl state.acl) i = true → i.endpointId ≠ i'.endpointId
  grants : ∀ a, a.groupId ≠ gid → (a ∈ db'.groupAcl ↔ a ∈ db.groupAcl ∧
    ∀ i ∈ db.identity, i.id = a.identityId → survives (effectiveAcl state.acl) i = true)
  deks : ∀ r, r ∈ db'.groupDek ↔
    r ∈ db.groupDek ∨ r.groupId = gid ∧ ∃ d ∈ state.deks, d.version = r.version
  unlisted : ∀ n, (∀ e ∈ state.secrets, e.name ≠ n) → holding db' gid n = none
  listed : ∀ n, (∃ e ∈ state.secrets, e.name = n) →
    Refreshed fetched gid n (holding db gid n) (holding db' gid n)
  others : ∀ g n, g ≠ gid → holding db' g n = holding db g n

/-- 適用の結果を行ごとに言う。 -/
theorem reconciled_of_apply {changes : List AppliedChange}
    (h : applyGroupSync db own state fetched = some (changes, db'))
    (ha : Applied own state fetched gid db db') : Reconciled own state fetched gid db db' := by
  obtain ⟨gid', d₁, d₂, d₃, d₄, hgid, h₁, h₂, h₃, h₄, hdb'⟩ := applyGroupSync_steps h
  have hrows := holding_unlisted d₄ gid' state.secrets
  have hf₁ := keeps_foldlM besideAcl (fun _ _ _ => besideAcl_adoptIdentity) h₁
  have hf₂ := keeps_foldlM (fun db => (besideAcl db, db.identity, foreignAcl gid' db))
    (fun _ _ _ => besideAcl_adoptAcl) h₂
  have hf₃ := keeps_foldlM besideDeks (fun _ _ _ h => (adoptDek_eq_some h).1) h₃
  have hf₄ := keeps_foldlM besideSecrets (fun _ _ _ => besideSecrets_replaceSecret) h₄
  have hf₅ := besideSecrets_eraseSecrets d₄ gid' (unlistedSecrets d₄ gid' state.secrets)
  rw [← hdb'] at hf₅ hrows
  simp only [besideAcl, besideDeks, besideSecrets, Prod.mk.injEq] at hf₁ hf₂ hf₃ hf₄ hf₅
  obtain ⟨hm₁, hg₁, hd₁, hs₁, hv₁, hl₁⟩ := hf₁
  obtain ⟨⟨hm₂, hg₂, hd₂, hs₂, hv₂, hl₂⟩, hi₂, ha₂⟩ := hf₂
  obtain ⟨hm₃, hi₃, hg₃, ha₃, hs₃, hv₃, hl₃⟩ := hf₃
  obtain ⟨hm₄, hi₄, hg₄, ha₄, hd₄, hl₄⟩ := hf₄
  obtain ⟨hm₅, hi₅, hg₅, ha₅, hd₅, hl₅⟩ := hf₅
  have hgroups : d₃.secretGroup = (db.insertGroupOrIgnore state.name).secretGroup :=
    hg₃.trans (hg₂.trans hg₁)
  have hgroups' : db'.secretGroup = (db.insertGroupOrIgnore state.name).secretGroup :=
    hg₅.trans (hg₄.trans hgroups)
  obtain rfl : gid' = gid :=
    Option.some.inj (hgid.symm.trans ((groupId_congr hgroups' _).symm.trans ha.located))
  have hidentity : db'.identity = d₁.identity := hi₅.trans (hi₄.trans (hi₃.trans hi₂))
  have hsettled := adoptIdentities_rows h₁
  -- 規則 4 と 5 の前は、secret の行は元のままである
  have hold : ∀ g n, holding (dropStaleWraps d₃ own gid' state.deks) g n = holding db g n :=
    holding_congr (hs₃.trans (hs₂.trans hs₁)) (hv₃.trans (hv₂.trans hv₁))
  obtain ⟨d, hd, -, hown, hother⟩ := @replaceSecrets_spec (dropStaleWraps d₃ own gid' state.deks) gid'
    ⟨_, hgroups ▸ groupId_eq_some.mp hgid, rfl⟩ fetched
  obtain rfl : d = d₄ := Option.some.inj (hd.symm.trans h₄)
  refine ⟨ha, hm₅.trans (hm₄.trans (hm₃.trans (hm₂.trans hm₁))),
    hl₅.trans (hl₄.trans (hl₃.trans (hl₂.trans hl₁))), ?_, ?_, ?_, ?_, ?_, ?_, ?_, ?_⟩
  · intro r
    rw [hgroups']
    exact mem_insertGroupOrIgnore hgid r
  · rw [hidentity]
    exact hsettled.kept
  · rw [hidentity]
    intro i' hi'
    exact (hsettled.origin i' hi').imp_right fun h => ⟨h.1, fun i hi hs => (h.2 i hi hs).1⟩
  · intro a hne
    have hforeign : a ∈ d₂.groupAcl ∧ a.groupId ≠ gid' ↔
        a ∈ d₁.groupAcl.delete (·.groupId == gid') ∧ a.groupId ≠ gid' := Set.ext_iff.mp ha₂ a
    rw [and_iff_left hne, and_iff_left hne, Table.mem_delete, beq_eq_false_iff_ne,
      and_iff_left hne] at hforeign
    rw [ha₅.trans (ha₄.trans ha₃), hforeign]
    exact hsettled.acl a
  · intro r
    rw [hd₅.trans hd₄]
    refine (adoptDeks_rows h₃ r).trans ?_
    rw [hd₂.trans hd₁]
    rfl
  · intro n hn
    rw [hrows, if_pos ⟨rfl, hn⟩]
  · rintro n ⟨e, he, hn⟩
    rw [hrows, if_neg fun hc => hc.2 e he hn, ← hold]
    exact hown n
  · intro g n hne
    rw [hrows, if_neg fun hc => hne hc.1, hother g n hne, hold]

/-! ## ほかの group -/

/-- **反映はほかの group の行に触れない。** secret、version、DEK、wrap はどれもそのまま残る。
名前がほかの endpoint の行に挙がっていない identity は id も許可も失わない。
許可を失うのは、名前をほかの endpoint に取られた identity のものだけである。 -/
theorem applyGroupSync_frame (db : Db) (own : String) (state : GroupSyncState)
    (fetched : List FetchedSecret) :
    ∃ changes db' gid, applyGroupSync db own state fetched = some (changes, db') ∧
      groupId db' state.name = some gid ∧
      (∀ name, name ≠ state.name → groupId db' name = groupId db name) ∧
      (∀ s : SecretRow, s.groupId ≠ gid → (s ∈ db'.secret ↔ s ∈ db.secret)) ∧
      (∀ s ∈ db.secret, s.groupId ≠ gid → ∀ v : VersionRow, v.secretId = s.id →
        (v ∈ db'.secretVersion ↔ v ∈ db.secretVersion)) ∧
      (∀ d : DekRow, d.groupId ≠ gid → (d ∈ db'.groupDek ↔ d ∈ db.groupDek)) ∧
      (∀ w : WrapRow, w.groupId ≠ gid → (w ∈ db'.dekWrap ↔ w ∈ db.dekWrap)) ∧
      (∀ i ∈ db.identity,
        (∀ e ∈ effectiveAcl state.acl, e.identityName = i.name → e.endpointId = i.endpointId) →
        ∃ i' ∈ db'.identity, i'.id = i.id ∧ i'.endpointId = i.endpointId) ∧
      ∀ a : AclRow, a.groupId ≠ gid → (a ∈ db'.groupAcl → a ∈ db.groupAcl) ∧
        (a ∈ db.groupAcl → a ∉ db'.groupAcl → ∃ i ∈ db.identity, i.id = a.identityId ∧
          ∃ e ∈ effectiveAcl state.acl, e.identityName = i.name ∧ e.endpointId ≠ i.endpointId) := by
  obtain ⟨removed, db', gid, h, happlied, -⟩ := applyGroupSync_spec db own state fetched
  have hrec := reconciled_of_apply h happlied
  have hnames := effectiveAcl_names_nodup state.acl
  refine ⟨_, db', gid, h, happlied.located, happlied.others, ?_, ?_, ?_, ?_, ?_, ?_⟩
  · intro s hne
    exact (rows_of_holding (fun n => hrec.others s.groupId n hne) rfl).1
  · intro s hs hne
    exact (rows_of_holding (fun n => hrec.others s.groupId n hne) rfl).2 hs
  · intro d hne
    rw [hrec.deks]
    exact or_iff_left fun hc => hne hc.1
  · intro w hne
    rw [happlied.wraps]
    exact ⟨fun hc => (hc.resolve_right fun hc => hne hc.1).1, fun hw => Or.inl ⟨hw, hne⟩⟩
  · intro i hi hunclaimed
    have hs : survives (effectiveAcl state.acl) i = true := by
      by_contra hdead
      obtain ⟨e, he, hname, hend⟩ := claimed_of_not_survives hnames (Bool.eq_false_iff.mpr hdead)
      exact hend (hunclaimed e he hname)
    exact ⟨_, hrec.kept i hi hs, renamed_id _ i, renamed_endpointId _ i⟩
  · intro a hne
    refine ⟨fun ha' => ((hrec.grants a hne).mp ha').1, fun ha hgone => ?_⟩
    obtain ⟨i, hi, hid⟩ := db.aclIdentity a ha
    refine ⟨i, hi, hid, claimed_of_not_survives hnames (Bool.eq_false_iff.mpr fun hs => hgone ?_)⟩
    refine (hrec.grants a hne).mpr ⟨ha, fun j hj hja => ?_⟩
    rwa [Table.eq_of_conflict hj hi (Or.inl (hja.trans hid.symm))]

/-- 二つの鍵が名前を交換する前の mirror。 -/
def beforeSwap : Db :=
  ((applyGroupSync Db.empty "replica"
    ⟨"h", [⟨"bob", "eb", 1⟩, ⟨"alice", "ea", 1⟩], [], []⟩ []).map Prod.snd).getD Db.empty

/-- 二人の名前が入れ替わった manifest。 -/
def swapped : GroupSyncState := ⟨"g", [⟨"bob", "ea", 1⟩, ⟨"alice", "eb", 1⟩], [], []⟩

/-- 名前を交換した鍵は、登録されたままでも新しい id になる。 -/
theorem swap_reassigns_id : ∃ changes db', applyGroupSync beforeSwap "replica" swapped [] =
      some (changes, db') ∧
    ∃ i ∈ beforeSwap.identity, ∃ i' ∈ db'.identity, i'.endpointId = i.endpointId ∧ i'.id ≠ i.id := by
  have hrows : (applyGroupSync beforeSwap "replica" swapped []).map (·.2.identity.rows) =
      some [⟨2, "ea", "bob", false⟩, ⟨3, "eb", "alice", false⟩] := by decide +kernel
  obtain ⟨⟨changes, db'⟩, h, hrows⟩ := Option.map_eq_some_iff.mp hrows
  refine ⟨changes, db', h, ⟨1, "eb", "bob", false⟩, by decide +kernel, ⟨3, "eb", "alice", false⟩, ?_,
    rfl, by decide⟩
  rw [Table.mem_def, hrows]
  decide

/-! ## もう一度写す -/

/-- 行の集まりがどの表でも同じ。 -/
structure Alike (db db' : Db) : Prop where
  metadata : db'.metadata = db.metadata
  identities : ∀ i, i ∈ db'.identity ↔ i ∈ db.identity
  groups : ∀ g, g ∈ db'.secretGroup ↔ g ∈ db.secretGroup
  acl : ∀ a, a ∈ db'.groupAcl ↔ a ∈ db.groupAcl
  deks : ∀ d, d ∈ db'.groupDek ↔ d ∈ db.groupDek
  wraps : ∀ w, w ∈ db'.dekWrap ↔ w ∈ db.dekWrap
  secrets : ∀ s, s ∈ db'.secret ↔ s ∈ db.secret
  versions : ∀ v, v ∈ db'.secretVersion ↔ v ∈ db.secretVersion
  log : db'.auditLog = db.auditLog

namespace Reconciled

/-- 揃えた後の identity は、もう一度揃えても消えず、行も変わらない。 -/
theorem settled (h : Reconciled own state fetched gid db db') {i : Identity}
    (hi : i ∈ db'.identity) :
    survives (effectiveAcl state.acl) i = true ∧ renamed (effectiveAcl state.acl) i = i := by
  have hholders := h.applied.acl.holders
  constructor
  · by_contra hdead
    obtain ⟨e, he, hname, hend⟩ := claimed_of_not_survives (effectiveAcl_names_nodup state.acl)
      (Bool.eq_false_iff.mpr hdead)
    obtain ⟨k, hk, hke, hkn, -⟩ := hholders e he
    obtain rfl : k = i := Table.eq_of_conflict hk hi (Or.inr (Or.inr (hkn.trans hname)))
    exact hend hke.symm
  · refine renamed_of_agrees fun e he hend => ?_
    obtain ⟨k, hk, hke, hkn, hka⟩ := hholders e he
    obtain rfl : k = i := Table.eq_of_conflict hk hi (Or.inr (Or.inl (hke.trans hend)))
    exact ⟨hkn.symm, hka⟩

variable {db₁ db₂ : Db}

variable (h : Reconciled own state fetched gid db db₁)
include h

theorem identities_again (h' : Reconciled own state [] gid db₁ db₂) (i : Identity) :
    i ∈ db₂.identity ↔ i ∈ db₁.identity := by
  constructor
  · intro hi
    rcases h'.origin i hi with ⟨j, hj, -, rfl⟩ | ⟨⟨e, he, hend⟩, hfresh⟩
    · rw [(h.settled hj).2]
      exact hj
    · -- 挙がっている endpoint の行は、一度目の反映で入っている
      obtain ⟨k, hk, hke, -⟩ := h.applied.acl.holders e he
      exact absurd (hke.trans hend) (hfresh k hk (h.settled hk).1)
  · intro hi
    have hkept := h'.kept i hi (h.settled hi).1
    rwa [(h.settled hi).2] at hkept

theorem holding_again (h' : Reconciled own state [] gid db₁ db₂) (g : Nat) (n : String) :
    holding db₂ g n = holding db₁ g n := by
  by_cases hg : g = gid
  · subst hg
    by_cases hl : ∃ e ∈ state.secrets, e.name = n
    · exact h'.listed n hl
    · have hn : ∀ e ∈ state.secrets, e.name ≠ n := fun e he hen => hl ⟨e, he, hen⟩
      rw [h.unlisted n hn, h'.unlisted n hn]
  · exact h'.others g n hg

/-- 同じ状態をもう一度写しても、どの表も変わらない。 -/
theorem again (h' : Reconciled own state [] gid db₁ db₂) : Alike db₁ db₂ := by
  have hid := h.identities_again h'
  have hrows : ∀ s, (s ∈ db₂.secret ↔ s ∈ db₁.secret) ∧ (s ∈ db₁.secret → ∀ v : VersionRow,
      v.secretId = s.id → (v ∈ db₂.secretVersion ↔ v ∈ db₁.secretVersion)) :=
    fun s => rows_of_holding (h.holding_again h' s.groupId) rfl
  refine ⟨h'.metadata, hid, ?_, ?_, ?_, ?_, fun s => (hrows s).1, ?_, h'.log⟩
  · intro g
    rw [h'.groups]
    refine or_iff_left_of_imp ?_
    rintro rfl
    exact groupId_eq_some.mp h.applied.located
  · intro a
    by_cases hg : a.groupId = gid
    · rw [h'.applied.acl.granted a hg, h.applied.acl.granted a hg]
      unfold Grants
      simp only [hid]
    · rw [h'.grants a hg]
      exact and_iff_left fun i hi _ => (h.settled hi).1
  · intro d
    rw [h'.deks]
    exact or_iff_left_of_imp fun hd => (h.deks d).mpr (Or.inr hd)
  · intro w
    by_cases hg : w.groupId = gid
    · simp [h'.applied.wraps w, h.applied.wraps w, hg]
    · simp [h'.applied.wraps w, hg]
  · intro v
    constructor
    · intro hv
      obtain ⟨s, hs, hsv⟩ := db₂.versionOfSecret v hv
      exact ((hrows s).2 ((hrows s).1.mp hs) v hsv.symm).mp hv
    · intro hv
      obtain ⟨s, hs, hsv⟩ := db₁.versionOfSecret v hv
      exact ((hrows s).2 hs v hsv.symm).mpr hv

theorem removed_again {removed : List String} (hr : Removed state [] gid db₁ removed) :
    removed = [] := by
  refine List.eq_nil_iff_forall_not_mem.mpr fun n hn => ?_
  obtain ⟨hpresent, hunlisted⟩ := (hr n).mp hn
  refine hpresent ?_
  show (slot db₁ gid n).1 = none
  rw [slot_eq_seen, h.unlisted n hunlisted]
  rfl

end Reconciled

/-- 取り寄せた行は、一覧の行の `(version, dek_version, nonce)` を持つ。 -/
def Carries (f : FetchedSecret) (e : SecretEntry) : Prop :=
  f.version = e.currentVersion ∧ f.dekVersion = e.dekVersion ∧ f.nonce = e.nonce

/-- 要る名前はどれも取り寄せてあり、取り寄せた行は一覧の行と食い違わない。 -/
structure Supplied (db : Db) (state : GroupSyncState) (fetched : List FetchedSecret) : Prop where
  needed : ∀ n ∈ secretsNeedingFetch db state, latest fetched n ≠ none
  carried : ∀ e ∈ state.secrets, ∀ f, latest fetched e.name = some f → Carries f e

/-- 適用の後に、取り寄せるものは残らない。 -/
theorem Reconciled.needs_nothing (h : Reconciled own state fetched gid db db')
    (hs : Supplied db state fetched) : secretsNeedingFetch db' state = [] := by
  unfold secretsNeedingFetch
  rw [h.applied.located]
  show List.map _ _ = []
  rw [List.map_eq_nil_iff, List.filter_eq_nil_iff]
  intro e he
  rw [Bool.not_eq_true', Bool.not_eq_false]
  refine unchanged_iff.mpr ?_
  have hslot := h.applied.slotOf state.name e.name
  rw [slotOf_eq h.applied.located, if_pos rfl, if_neg fun hn => hn e he rfl] at hslot
  unfold fetchedSlot at hslot
  cases hl : latest fetched e.name with
  | some f =>
    rw [hl] at hslot
    exact ⟨_, congrArg Prod.snd hslot, hs.carried e he f hl⟩
  | none =>
    rw [hl] at hslot
    -- 取り寄せなかった名前は、手元の行がはじめから一覧と一致していた
    obtain ⟨r, hr, hsame⟩ := current_of_not_needed he fun hn => hs.needed _ hn hl
    exact ⟨r, (congrArg Prod.snd hslot).trans hr, hsame⟩

/-- **反映は必ず成功し、group を状態のとおりに揃え、もう一度写しても何も変えない。**
ACL は衝突を解いた一覧そのもの、wrap は自分宛てで version ごとに最後のものだけになる。
取り寄せた名前は最後の一行だけを持ち、一覧に無い名前は消え、ほかの名前の行は元のままである。 -/
theorem applyGroupSync_exact (db : Db) (own : String) (state : GroupSyncState)
    (fetched : List FetchedSecret) :
    ∃ changes db' gid, applyGroupSync db own state fetched = some (changes, db') ∧
      groupId db' state.name = some gid ∧
      ((aclEntriesFull db' gid).map fun e => (⟨e.1, e.2.1, e.2.2⟩ : AclEntry)).Perm
        (effectiveAcl state.acl) ∧
      (∀ w : WrapRow, w.groupId = gid → (w ∈ db'.dekWrap ↔
        w.recipient = own ∧ latestDek state.deks w.dekVersion = some w.wrapped)) ∧
      (∀ n, (∃ e ∈ state.secrets, e.name = n) → ∀ f, latest fetched n = some f →
        ∃ sid, holding db' gid n = some (⟨sid, gid, n, f.version⟩, [fetchedRow f sid])) ∧
      (∀ n, (∀ e ∈ state.secrets, e.name ≠ n) → holding db' gid n = none) ∧
      (∀ n, (∃ e ∈ state.secrets, e.name = n) → latest fetched n = none →
        holding db' gid n = holding db gid n) ∧
      (Supplied db state fetched → secretsNeedingFetch db' state = []) ∧
      ∃ db'', applyGroupSync db' own state [] = some ([], db'') ∧ Alike db' db'' := by
  obtain ⟨removed, db', gid, h, happlied, -⟩ := applyGroupSync_spec db own state fetched
  have hrec := reconciled_of_apply h happlied
  refine ⟨_, db', gid, h, happlied.located, ?_, ?_, ?_, hrec.unlisted, ?_, hrec.needs_nothing, ?_⟩
  · have hnodup : ((aclEntriesFull db' gid).map fun e => (⟨e.1, e.2.1, e.2.2⟩ : AclEntry)).Nodup := by
      refine List.Nodup.of_map (·.identityName) ?_
      rw [List.map_map]
      exact aclEntriesFull_nodup db' gid
    rw [List.perm_ext_iff_of_nodup hnodup (effectiveAcl_names_nodup state.acl).of_map]
    intro e
    rw [List.mem_map]
    constructor
    · rintro ⟨x, hx, rfl⟩
      exact happlied.mem_aclEntriesFull.mp hx
    · exact fun he => ⟨(e.identityName, e.endpointId, e.perms), happlied.mem_aclEntriesFull.mpr he, rfl⟩
  · intro w hw
    simp [happlied.wraps w, hw]
  · intro n hn f hf
    have hrefreshed := hrec.listed n hn
    unfold Refreshed at hrefreshed
    rw [hf] at hrefreshed
    obtain ⟨sid, hsid⟩ := hrefreshed
    refine ⟨sid, ?_⟩
    rw [hsid, ← (latest_eq_some hf).2]
    rfl
  · intro n hn hf
    have hrefreshed := hrec.listed n hn
    unfold Refreshed at hrefreshed
    rwa [hf] at hrefreshed
  · obtain ⟨removed', db'', gid', h', happlied', hremoved'⟩ := applyGroupSync_spec db' own state []
    obtain rfl : gid = gid' := happlied'.before gid happlied.located
    refine ⟨db'', ?_, hrec.again (reconciled_of_apply h' happlied')⟩
    rw [h', hrec.removed_again hremoved']
    rfl

/-- secret を一つ載せた状態と、その行。 -/
def oneListed : GroupSyncState := ⟨"g", [], [⟨1, [7]⟩], [⟨"db", 1, 1, [0]⟩]⟩

/-- 一つの secret の取り寄せた中身。 -/
def fetchedOne (nonce : Bytes) : FetchedSecret := ⟨⟨1, 1, nonce, [3], 0, "alice"⟩, "db"⟩

theorem applyGroupSync_exact_sample : Supplied Db.empty oneListed [fetchedOne [0]] ∧
    ∃ changes db', applyGroupSync Db.empty "replica" oneListed [fetchedOne [0]] =
      some (changes, db') ∧ secretsNeedingFetch db' oneListed = [] := by
  have hs : Supplied Db.empty oneListed [fetchedOne [0]] := by
    refine ⟨by decide +kernel, ?_⟩
    intro e he f hf
    obtain rfl := List.mem_singleton.mp he
    obtain rfl : fetchedOne [0] = f := Option.some.inj hf
    exact ⟨rfl, rfl, rfl⟩
  obtain ⟨changes, db', gid, h, -, -, -, -, -, -, hneeds, -⟩ :=
    applyGroupSync_exact Db.empty "replica" oneListed [fetchedOne [0]]
  exact ⟨hs, changes, db', h, hneeds hs⟩

/-- `oneListed` を写し終えた mirror。 -/
def oneMirrored : Db :=
  ((applyGroupSync Db.empty "replica" oneListed [fetchedOne [0]]).map Prod.snd).getD Db.empty

/-- 要らない名前の行が食い違うまま渡ると、揃っていた mirror がまた取り寄せを要する。 -/
theorem unneeded_row_unsettles : (oneListed.secrets.map (·.name)).Nodup ∧
    (∀ e ∈ oneListed.secrets, e.name ∈ secretsNeedingFetch oneMirrored oneListed →
      ∃ f, latest [fetchedOne [9]] e.name = some f ∧ Carries f e) ∧
    ∃ changes db', applyGroupSync oneMirrored "replica" oneListed [fetchedOne [9]] =
      some (changes, db') ∧ secretsNeedingFetch db' oneListed ≠ [] := by
  have hnone : secretsNeedingFetch oneMirrored oneListed = [] := by decide +kernel
  have hneeds : (applyGroupSync oneMirrored "replica" oneListed [fetchedOne [9]]).map
      (fun r => secretsNeedingFetch r.2 oneListed) = some ["db"] := by decide +kernel
  obtain ⟨⟨changes, db'⟩, h, hneeds⟩ := Option.map_eq_some_iff.mp hneeds
  refine ⟨by decide +kernel, ?_, changes, db', h, ?_⟩
  · intro e _ hn
    rw [hnone] at hn
    cases hn
  · rw [hneeds]
    exact List.cons_ne_nil _ _

end Reconcile

end Store

end SecretBunker
