import SecretBunker.Store.Rows

/-!
# secret と version の行の対応

`secret` の行の `current_version` と `secret_version` の行を結び付ける制約は database に無い。
put は version 0 の行から始めて一つずつ足し、mirror への反映は secret ごと置き換える。どちらの書き方でも
現在の行はちょうど一つあるので、inner join を使う問い合わせが名前を隠すことはない。

行の動きは、`(group, name)` の持つ行の全体 `holding` で述べる。
-/

namespace SecretBunker

open Relational

namespace Store

variable {db db' : Db}

/-- secret の version の行。 -/
def versionRows (db : Db) (s : SecretRow) : List VersionRow :=
  db.secretVersion.rows.filter (·.secretId == s.id)

/-! ## 書き込みの前後の行 -/

/-- `(group, name)` がこれまでに持つ version の行。 -/
def held (db : Db) (gid : Nat) (name : String) : List VersionRow :=
  ((holding db gid name).map Prod.snd).getD []

theorem holding_insertSecret {gid sid cur : Nat} {name : String} {mid : Db}
    (h : db.insertSecret gid name cur = some (sid, mid)) (g : Nat) (n : String) :
    holding mid g n =
      if g = gid ∧ n = name then some (⟨sid, gid, name, cur⟩, []) else holding db g n := by
  obtain ⟨hrows, hvers, hnov, -⟩ := insertSecret_spec h
  split
  · next hgn =>
    obtain ⟨rfl, rfl⟩ := hgn
    rw [holding, secretRow_eq_some.mpr ⟨(hrows _).mpr (Or.inr rfl), rfl, rfl⟩, Option.map_some, hvers,
      List.filter_eq_nil_iff.mpr fun v hv hi => hnov v hv (beq_iff_eq.mp hi)]
  · next hgn =>
    have hrow : secretRow mid g n = secretRow db g n := by
      refine Option.ext fun s => ?_
      rw [secretRow_eq_some, secretRow_eq_some, hrows]
      refine ⟨?_, fun ⟨hs, hgn⟩ => ⟨Or.inl hs, hgn⟩⟩
      rintro ⟨hs | rfl, hg, hn⟩
      · exact ⟨hs, hg, hn⟩
      · exact absurd ⟨hg.symm, hn.symm⟩ hgn
    rw [holding, holding, hrow, hvers]

/-- 進めた secret の行には、足した version の行が加わる。 -/
theorem holding_commitVersion {s : SecretRow} (hs : s ∈ db.secret) {dv : Nat} {nonce ct : Bytes}
    {now : Int} {by_ : String} {o : CasOutcome}
    (h : commitVersion db s.id s.currentVersion dv nonce ct now by_ = some (o, db'))
    (g : Nat) (n : String) :
    holding db' g n =
      if g = s.groupId ∧ n = s.name then
        some (⟨s.id, s.groupId, s.name, s.currentVersion + 1⟩, versionRows db s ++
          [⟨s.id, s.currentVersion + 1, dv, nonce, ct, now, by_⟩])
      else holding db g n := by
  obtain ⟨u, hg, hv, hu, -, rfl⟩ := commitVersion_eq_some h
  have hrow : secretRow ((db.withSecrets db.secret u hg hv).setCurrentVersion s.id
      (s.currentVersion + 1)) g n = (secretRow db g n).map (Db.advance s.id (s.currentVersion + 1)) :=
    secretRow_setCurrentVersion
  have hver : ∀ i, u.rows.filter (·.secretId == i) = db.secretVersion.rows.filter (·.secretId == i) ++
      if s.id = i then [⟨s.id, s.currentVersion + 1, dv, nonce, ct, now, by_⟩] else [] := by
    intro i
    rw [(Table.insert_eq_some_iff.mp hu).2, List.filter_append]
    by_cases hi : s.id = i <;> simp [hi]
  unfold holding
  rw [hrow]
  split
  · next hgn =>
    obtain ⟨rfl, rfl⟩ := hgn
    rw [secretRow_eq_some.mpr ⟨hs, rfl, rfl⟩, Option.map_some, Option.map_some, Db.advance_self]
    show some (_, u.rows.filter (·.secretId == s.id)) = _
    rw [hver, if_pos rfl]
    rfl
  · next hgn =>
    rw [Option.map_map]
    refine Option.map_congr fun s' hr => ?_
    obtain ⟨hs', hg', hn'⟩ := secretRow_eq_some.mp hr
    have hne : s'.id ≠ s.id := by
      intro he
      rw [Table.eq_of_conflict hs' hs (Or.inl he)] at hg' hn'
      exact hgn ⟨hg'.symm, hn'.symm⟩
    show (Db.advance s.id (s.currentVersion + 1) s', u.rows.filter
      (·.secretId == (Db.advance s.id (s.currentVersion + 1) s').id)) = _
    rw [Db.advance_of_ne _ hne, hver, if_neg (Ne.symm hne), List.append_nil]

/-- put は、`(group, name)` の行に一つ足し、ほかの行には触れない。 -/
theorem holding_putSecret {gid e dv v : Nat} {name by_ : String} {nonce ct : Bytes} {now : Int}
    (h : putSecret db gid name e dv nonce ct now by_ = some (.applied v, db')) :
    v = e + 1 ∧ ((holding db gid name).map (·.1.currentVersion)).getD 0 = e ∧
      ∃ sid, ∀ g n, holding db' g n =
        if g = gid ∧ n = name then
          some (⟨sid, gid, name, e + 1⟩, held db gid name ++ [⟨sid, e + 1, dv, nonce, ct, now, by_⟩])
        else holding db g n := by
  unfold putSecret at h
  unfold held
  cases hs : secretRow db gid name with
  | some s =>
    obtain ⟨hm, rfl, rfl⟩ := secretRow_eq_some.mp hs
    rw [hs] at h
    dsimp only at h
    split at h
    · cases h
    · next he =>
      obtain rfl : s.currentVersion = e := not_not.mp he
      obtain ⟨-, -, -, -, ho, -⟩ := commitVersion_eq_some h
      cases ho
      rw [holding_of_mem hm]
      exact ⟨rfl, rfl, s.id, holding_commitVersion hm h⟩
  | none =>
    rw [hs] at h
    dsimp only at h
    split at h
    · cases h
    · next he =>
      obtain rfl : e = 0 := not_not.mp he
      obtain ⟨⟨sid, mid⟩, hmid, h⟩ := Option.bind_eq_some_iff.mp h
      obtain ⟨-, -, -, -, ho, -⟩ := commitVersion_eq_some h
      cases ho
      have hmem := ((insertSecret_spec hmid).1 _).mpr (Or.inr rfl)
      have hnew := holding_insertSecret hmid
      rw [holding_eq_none.mpr hs]
      refine ⟨rfl, rfl, sid, fun g n => ?_⟩
      rw [holding_commitVersion hmem h, hnew]
      have hrows := hnew gid name
      rw [holding_of_mem hmem, if_pos ⟨rfl, rfl⟩] at hrows
      by_cases hgn : g = gid ∧ n = name
      · rw [if_pos hgn, if_pos hgn, versionRows, (Prod.mk.inj (Option.some.inj hrows)).2]
        rfl
      · rw [if_neg hgn, if_neg hgn, if_neg hgn]

theorem holding_deleteSecret {gid e v : Nat} {name : String}
    (h : deleteSecret db gid name e = (.applied v, db')) (g : Nat) (n : String) :
    holding db' g n = if g = gid ∧ n = name then none else holding db g n := by
  unfold Store.deleteSecret at h
  cases hs : secretRow db gid name with
  | none => rw [hs] at h; cases h
  | some s =>
    obtain ⟨hm, rfl, rfl⟩ := secretRow_eq_some.mp hs
    rw [hs] at h
    dsimp only at h
    split at h
    · cases h
    · cases h
      split
      · next hgn =>
        obtain ⟨rfl, rfl⟩ := hgn
        refine holding_eq_none.mpr (secretRow_eq_none.mpr fun s' hs' hg hn => ?_)
        obtain ⟨hs', hne⟩ := mem_secret_deleteSecret.mp hs'
        exact hne (congrArg SecretRow.id (Table.eq_of_conflict hs' hm (Or.inr ⟨hg, hn⟩)))
      · next hgn =>
        refine holding_deleteSecret_kept fun s' hs' hg hn => beq_eq_false_iff_ne.mpr fun hid => ?_
        rw [Table.eq_of_conflict hs' hm (Or.inl hid)] at hg hn
        exact hgn ⟨hg.symm, hn.symm⟩

/-! ## mirror の操作 -/

/-- mirror の行を書き換える操作。 -/
inductive MirrorOp where
  | apply (ownEndpoint : String) (state : GroupSyncState) (fetched : List FetchedSecret)
  | drop (name : String)
  | gc

/-- replica の書き込み一つ。 -/
def MirrorOp.step (db : Db) : MirrorOp → Db
  | .apply own state fetched => ((applyGroupSync db own state fetched).map Prod.snd).getD db
  | .drop name => (dropGroupLocal db name).2
  | .gc => gcUnreferencedIdentities db

/-- replica の書き込みの列。 -/
def MirrorOp.exec (db : Db) (ops : List MirrorOp) : Db := ops.foldl MirrorOp.step db

/-- 反映は必ず成功し、残った行はどれも元の行か、取り寄せた行である。 -/
theorem apply_cases (db : Db) (own : String) (state : GroupSyncState) (fetched : List FetchedSecret) :
    ∃ gid, Reconciled own state fetched gid db (MirrorOp.step db (.apply own state fetched)) ∧
      ∀ g n, holding (MirrorOp.step db (.apply own state fetched)) g n = none ∨
        holding (MirrorOp.step db (.apply own state fetched)) g n = holding db g n ∨
        g = gid ∧ ∃ f ∈ fetched, f.name = n ∧ ∃ sid,
          holding (MirrorOp.step db (.apply own state fetched)) g n = some (fetchedHolding f sid gid) := by
  obtain ⟨removed, db', gid, hspec, happlied, -⟩ := applyGroupSync_spec db own state fetched
  have hdb : MirrorOp.step db (.apply own state fetched) = db' := by
    show ((applyGroupSync db own state fetched).map Prod.snd).getD db = db'
    rw [hspec]
    rfl
  rw [hdb]
  have hr := reconciled_of_apply hspec happlied
  refine ⟨gid, hr, fun g n => ?_⟩
  by_cases hg : g = gid
  · subst hg
    by_cases hlisted : ∃ e ∈ state.secrets, e.name = n
    · have hrefreshed := hr.listed n hlisted
      unfold Refreshed at hrefreshed
      split at hrefreshed
      · next f hf =>
        obtain ⟨sid, hsid⟩ := hrefreshed
        exact Or.inr (Or.inr ⟨rfl, f, (latest_eq_some hf).1, (latest_eq_some hf).2, sid, hsid⟩)
      · exact Or.inr (Or.inl hrefreshed)
    · exact Or.inl (hr.unlisted n fun e he hn => hlisted ⟨e, he, hn⟩)
  · exact Or.inr (Or.inl (hr.others g n hg))

/-- 消した後の行は、元のままか、一つも無い。 -/
theorem holding_deleteSecret_cases (db : Db) (p : SecretRow → Bool) (g : Nat) (n : String) :
    holding (db.deleteSecret p) g n = none ∨ holding (db.deleteSecret p) g n = holding db g n := by
  by_cases hp : ∃ s ∈ db.secret, s.groupId = g ∧ s.name = n ∧ p s = true
  · obtain ⟨s, hs, rfl, rfl, hp⟩ := hp
    refine Or.inl (holding_eq_none.mpr (secretRow_eq_none.mpr fun s' hs' hg hn => ?_))
    obtain ⟨hs', hkept⟩ := Table.mem_delete.mp hs'
    rw [Table.eq_of_conflict hs' hs (Or.inr ⟨hg, hn⟩), hp] at hkept
    cases hkept
  · refine Or.inr (holding_deleteSecret_kept fun s hs hg hn => ?_)
    exact Bool.eq_false_iff.mpr fun hps => hp ⟨s, hs, hg, hn, hps⟩

theorem drop_cases (db : Db) (name : String) (g : Nat) (n : String) :
    holding (MirrorOp.step db (.drop name)) g n = none ∨
      holding (MirrorOp.step db (.drop name)) g n = holding db g n :=
  holding_deleteSecret_cases db (db.secretOfDeleted (·.name == name)) g n

/-! ## 現在の行 -/

/-- どの secret も、version の行をちょうど一つ、現在のものだけ持つ。 -/
def SoleCurrent (db : Db) : Prop :=
  ∀ s ∈ db.secret, (versionRows db s).map (·.version) = [s.currentVersion]

/-- どの secret も、1 から現在までの version の行をちょうど一つずつ持つ。 -/
def Numbered (db : Db) : Prop :=
  ∀ s ∈ db.secret, 1 ≤ s.currentVersion ∧
    (versionRows db s).map (·.version) = List.range' 1 s.currentVersion

theorem SoleCurrent.holding (h : SoleCurrent db) {g : Nat} {n : String} {s : SecretRow}
    {vs : List VersionRow} (hh : holding db g n = some (s, vs)) :
    vs.map (·.version) = [s.currentVersion] := by
  obtain ⟨s', hs', he⟩ := Option.map_eq_some_iff.mp hh
  cases he
  exact h s (secretRow_eq_some.mp hs').1

/-- どの適用も、一つの secret に一つの行を保つ。 -/
theorem SoleCurrent.step (h : SoleCurrent db) (op : MirrorOp) : SoleCurrent (op.step db) := by
  intro s hs
  have hrows := holding_of_mem hs
  cases op with
  | apply own state fetched =>
    obtain ⟨gid, -, hcases⟩ := apply_cases db own state fetched
    rcases hcases s.groupId s.name with hnone | hsame | ⟨-, f, -, -, sid, hnew⟩
    · cases hnone.symm.trans hrows
    · exact h.holding (hsame.symm.trans hrows)
    · obtain ⟨hs', hvs⟩ := Prod.mk.inj (Option.some.inj (hrows.symm.trans hnew))
      rw [versionRows, hvs, hs']
      rfl
  | drop name =>
    rcases drop_cases db name s.groupId s.name with hnone | hsame
    · cases hnone.symm.trans hrows
    · exact h.holding (hsame.symm.trans hrows)
  | gc => exact h s hs

theorem SoleCurrent.exec (h : SoleCurrent db) (ops : List MirrorOp) :
    SoleCurrent (MirrorOp.exec db ops) := by
  induction ops generalizing db with
  | nil => exact h
  | cons op rest ih => exact ih (h.step op)

/-! ## 問い合わせの一致 -/

/-- 名前と version について、四つの問い合わせの答えが一致する。 -/
structure QueriesAgree (db : Db) : Prop where
  entries : ∀ gid, (secretEntries db gid).map (fun e => (e.1, e.2.1)) = listSecrets db gid
  current : ∀ gid name, (secretCurrent db gid name).map (·.version) = secretVersion db gid name
  data : ∀ gid name, (secretDataCurrent db gid name).map (·.version) = secretVersion db gid name
  listed : ∀ gid name v, (name, v) ∈ listSecrets db gid ↔ secretVersion db gid name = some v

/-- 現在の行があれば、inner join は名前を隠さない。 -/
theorem queriesAgree_of_current
    (h : ∀ s ∈ db.secret, s.currentVersion ∈ (versionRows db s).map (·.version)) :
    QueriesAgree db := by
  have hrow : ∀ s ∈ db.secret, ∃ v, currentRow db s = some v ∧ v.version = s.currentVersion := by
    intro s hs
    obtain ⟨v, hv, hver⟩ := List.mem_map.mp (h s hs)
    obtain ⟨hv, hid⟩ := List.mem_filter.mp hv
    exact ⟨v, currentRow_eq_some.mpr ⟨hv, beq_iff_eq.mp hid, hver⟩, hver⟩
  have hdata : ∀ gid name,
      (secretDataCurrent db gid name).map (·.version) = secretVersion db gid name := by
    intro gid name
    unfold secretDataCurrent secretVersion
    cases hs : secretRow db gid name with
    | none => rfl
    | some s =>
      obtain ⟨v, hv, hver⟩ := hrow s (secretRow_eq_some.mp hs).1
      rw [Option.bind_some, hv]
      exact congrArg some hver
  refine ⟨fun gid => ?_, fun gid name => ?_, hdata, fun gid name v => mem_listSecrets⟩
  · unfold secretEntries listSecrets sortOn
    rw [List.map_insertionSort _ (fun a b : String × Nat => a.1 ≤ b.1) _ _ fun _ _ _ _ => Iff.rfl,
      List.map_filterMap, ← List.filterMap_eq_map]
    refine congrArg _ (List.filterMap_congr fun s hs => ?_)
    obtain ⟨v, hv, -⟩ := hrow s (List.mem_filter.mp hs).1
    rw [hv]
    rfl
  · rw [secretCurrent_eq, Option.map_map, ← hdata]
    rfl

theorem SoleCurrent.queriesAgree (h : SoleCurrent db) : QueriesAgree db :=
  queriesAgree_of_current fun s hs => by
    rw [h s hs]
    exact List.mem_singleton_self _

theorem Numbered.queriesAgree (h : Numbered db) : QueriesAgree db :=
  queriesAgree_of_current fun s hs => by
    rw [(h s hs).2, List.mem_range'_1]
    exact ⟨(h s hs).1, Nat.lt_one_add_iff.mpr (Nat.le_refl _)⟩

end Store

end SecretBunker
