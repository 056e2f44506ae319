import SecretBunker.Store.Mutate

/-!
# secret の書き込みの仕様

database の secret の側は、`(group, name)` ごとの現在の行 `secretDataCurrent` だけで見える。
compare-and-set の書き込みと削除は、この写像の一点だけを動かす。
-/

namespace SecretBunker

open Relational

namespace Store

variable {db db' : Db}

/-- secret には現在の version の行があり、それが最大で、1 以上である。 -/
structure Complete (db : Db) : Prop where
  current : ∀ s ∈ db.secret, ∃ v ∈ db.secretVersion, v.secretId = s.id ∧ v.version = s.currentVersion
  bounded : ∀ s ∈ db.secret, ∀ v ∈ db.secretVersion, v.secretId = s.id → v.version ≤ s.currentVersion
  positive : ∀ s ∈ db.secret, 0 < s.currentVersion

theorem complete_empty : Complete Db.empty where
  current := fun _ hs => absurd hs Table.mem_empty
  bounded := fun _ hs => absurd hs Table.mem_empty
  positive := fun _ hs => absurd hs Table.mem_empty

/-! ## 現在の行 -/

variable {gid sid dv e : Nat} {name by_ : String} {s : SecretRow} {nonce ct : Bytes} {now : Int}
  {o : CasOutcome}

theorem secretDataCurrent_eq_some {row : SecretDataRow} :
    secretDataCurrent db gid name = some row ↔
      ∃ s ∈ db.secret, s.groupId = gid ∧ s.name = name ∧
        ∃ v ∈ db.secretVersion, v.secretId = s.id ∧ v.version = s.currentVersion ∧ v.data = row := by
  unfold secretDataCurrent
  simp only [Option.bind_eq_some_iff, Option.map_eq_some_iff, secretRow_eq_some,
    currentRow_eq_some]
  constructor
  · rintro ⟨s, ⟨hs, hg, hn⟩, v, ⟨hv, hi, hc⟩, hr⟩
    exact ⟨s, hs, hg, hn, v, hv, hi, hc, hr⟩
  · rintro ⟨s, hs, hg, hn, v, hv, hi, hc, hr⟩
    exact ⟨s, ⟨hs, hg, hn⟩, v, ⟨hv, hi, hc⟩, hr⟩

theorem group_of_secretDataCurrent {row : SecretDataRow}
    (h : secretDataCurrent db gid name = some row) : ∃ g ∈ db.secretGroup, g.id = gid := by
  obtain ⟨s, hs, rfl, -⟩ := secretDataCurrent_eq_some.mp h
  exact db.secretInGroup s hs

theorem secretCurrent_eq :
    secretCurrent db gid name = (secretDataCurrent db gid name).map fun row =>
      ⟨row.version, row.dekVersion, row.nonce, row.ciphertext⟩ := by
  unfold secretCurrent secretDataCurrent
  cases secretRow db gid name with
  | none => rfl
  | some s => cases h : currentRow db s <;> simp [h, VersionRow.data]

theorem Complete.secretVersion_eq (hc : Complete db) :
    secretVersion db gid name = (secretDataCurrent db gid name).map (·.version) := by
  unfold secretVersion secretDataCurrent
  cases hs : secretRow db gid name with
  | none => rfl
  | some s =>
    obtain ⟨v, hv, hi, hver⟩ := hc.current s (secretRow_eq_some.mp hs).1
    rw [Option.bind_some, currentRow_eq_some.mpr ⟨hv, hi, hver⟩]
    exact congrArg some hver.symm

theorem mem_secretEntries {e : SecretEntryRow} :
    e ∈ secretEntries db gid ↔
      ∃ row, secretDataCurrent db gid e.1 = some row ∧
        e.2 = (row.version, row.dekVersion, row.nonce) := by
  unfold secretEntries
  simp only [mem_sortOn, List.mem_filterMap, List.mem_filter, Option.map_eq_some_iff,
    currentRow_eq_some, beq_iff_eq, secretDataCurrent_eq_some]
  constructor
  · rintro ⟨s, ⟨hs, hg⟩, v, ⟨hv, hi, hver⟩, rfl⟩
    exact ⟨v.data, ⟨s, hs, hg, rfl, v, hv, hi, hver, rfl⟩, by simp only [VersionRow.data, hver]⟩
  · rintro ⟨row, ⟨s, hs, hg, hn, v, hv, hi, hver, rfl⟩, he⟩
    refine ⟨s, ⟨hs, hg⟩, v, ⟨hv, hi, hver⟩, ?_⟩
    rw [← hver, hn]
    exact Prod.ext rfl he.symm

theorem mem_listSecrets {e : String × Nat} :
    e ∈ listSecrets db gid ↔ secretVersion db gid e.1 = some e.2 := by
  unfold listSecrets secretVersion
  simp only [mem_sortOn, List.mem_map, List.mem_filter, Option.map_eq_some_iff, beq_iff_eq,
    secretRow_eq_some]
  constructor
  · rintro ⟨s, ⟨hs, hg⟩, rfl⟩
    exact ⟨s, ⟨hs, hg, rfl⟩, rfl⟩
  · rintro ⟨s, ⟨hs, hg, hn⟩, hv⟩
    exact ⟨s, ⟨hs, hg⟩, Prod.ext hn hv⟩

/-- group の中の secret の名前は重ならない。 -/
theorem secretNames_nodup (db : Db) (gid : Nat) :
    ((db.secret.rows.filter fun s => s.groupId == gid).map (·.name)).Nodup := by
  refine Table.map_filter_nodup ?_ db.secret
  intro a b ha hb he
  exact Or.inr ⟨(eq_of_beq ha).trans (eq_of_beq hb).symm, he⟩

theorem secretEntries_nodup (db : Db) (gid : Nat) : ((secretEntries db gid).map Prod.fst).Nodup := by
  refine sortOn_map_nodup (nodup_filterMap_key ?_ (secretNames_nodup db gid))
  intro s e he
  obtain ⟨v, -, rfl⟩ := Option.map_eq_some_iff.mp he
  rfl

theorem listSecrets_nodup (db : Db) (gid : Nat) : ((listSecrets db gid).map Prod.fst).Nodup := by
  refine sortOn_map_nodup ?_
  rw [List.map_map]
  exact secretNames_nodup db gid

/-! ## 書き込み -/

theorem insertVersion_eq_some {v : VersionRow} (h : db.insertVersion v = some db') :
    ∃ u hg hv, db.secretVersion.insert v = some u ∧ db' = db.withSecrets db.secret u hg hv := by
  unfold Db.insertVersion at h
  split at h
  · split at h
    · cases h
    · next u hu => exact ⟨u, _, _, hu, (Option.some.inj h).symm⟩
  · cases h

theorem insertSecret_eq_some {cur : Nat} (h : db.insertSecret gid name cur = some (sid, db')) :
    ∃ t hg hv, db.secret.insert ⟨sid, gid, name, cur⟩ = some t ∧
      db' = db.withSecrets t db.secretVersion hg hv := by
  unfold Db.insertSecret at h
  split at h
  · split at h
    · cases h
    · next t ht =>
      cases h
      exact ⟨t, _, _, ht, rfl⟩
  · cases h

theorem secretRow_setCurrentVersion {version : Nat} :
    secretRow (db.setCurrentVersion sid version) gid name =
      (secretRow db gid name).map (Db.advance sid version) := by
  unfold secretRow
  refine @Table.find?_update _ _ _ _ _ (Db.conflict_advance sid version) ?_
  intro s
  rw [Db.advance_groupId, Db.advance_name]

theorem mem_setCurrentVersion {version : Nat} :
    s ∈ (db.setCurrentVersion sid version).secret ↔
      ∃ s' ∈ db.secret, Db.advance sid version s' = s :=
  @Table.mem_update _ _ _ _ _ (Db.conflict_advance sid version)

theorem commitVersion_eq_some {cur : Nat}
    (h : commitVersion db sid cur dv nonce ct now by_ = some (o, db')) :
    ∃ u hg hv, db.secretVersion.insert ⟨sid, cur + 1, dv, nonce, ct, now, by_⟩ = some u ∧
      o = .applied (cur + 1) ∧
      db' = (db.withSecrets db.secret u hg hv).setCurrentVersion sid (cur + 1) := by
  unfold commitVersion at h
  obtain ⟨mid, hmid, h⟩ := Option.bind_eq_some_iff.mp h
  obtain ⟨u, hg, hv, hu, rfl⟩ := insertVersion_eq_some hmid
  cases h
  exact ⟨u, hg, hv, hu, rfl, rfl⟩

/-- 進めた secret の現在の行は足した行になり、ほかの secret の行はそのままである。 -/
theorem secretDataCurrent_commit (hs : s ∈ db.secret)
    (hbound : ∀ v ∈ db.secretVersion, v.secretId = s.id → v.version ≤ s.currentVersion)
    (h : commitVersion db s.id s.currentVersion dv nonce ct now by_ = some (o, db')) (g : Nat)
    (n : String) :
    secretDataCurrent db' g n =
      if g = s.groupId ∧ n = s.name then some ⟨s.currentVersion + 1, dv, nonce, ct, now, by_⟩
      else secretDataCurrent db g n := by
  obtain ⟨u, hg, hv, hu, -, rfl⟩ := commitVersion_eq_some h
  have hcur : ∀ s' : SecretRow, currentRow ((db.withSecrets db.secret u hg hv).setCurrentVersion
      s.id (s.currentVersion + 1)) s' = (currentRow db s').or
        (if s.id = s'.id ∧ s.currentVersion + 1 = s'.currentVersion then
          some ⟨s.id, s.currentVersion + 1, dv, nonce, ct, now, by_⟩ else none) := by
    intro s'
    refine (Table.find?_insert hu _).trans ?_
    simp [currentRow]
  have hrow : secretRow ((db.withSecrets db.secret u hg hv).setCurrentVersion
      s.id (s.currentVersion + 1)) g n = (secretRow db g n).map (Db.advance s.id (s.currentVersion + 1)) :=
    secretRow_setCurrentVersion
  unfold secretDataCurrent
  rw [hrow]
  by_cases hgn : g = s.groupId ∧ n = s.name
  · obtain ⟨rfl, rfl⟩ := hgn
    rw [if_pos ⟨rfl, rfl⟩, secretRow_eq_some.mpr ⟨hs, rfl, rfl⟩, Option.map_some, Option.bind_some]
    rw [Db.advance_self, hcur, if_pos ⟨rfl, rfl⟩]
    -- いまある行は `currentVersion` までなので、次の version の行はまだ無い
    have hnone : currentRow db { s with currentVersion := s.currentVersion + 1 } = none := by
      rw [← Option.not_isSome_iff_eq_none, Option.isSome_iff_exists]
      rintro ⟨v, hcv⟩
      obtain ⟨hm, hi, hver⟩ := currentRow_eq_some.mp hcv
      have hle := hbound v hm hi
      rw [hver] at hle
      exact absurd hle (Nat.not_succ_le_self _)
    rw [hnone]
    rfl
  · rw [if_neg hgn]
    cases hr : secretRow db g n with
    | none => rfl
    | some s' =>
      obtain ⟨hs', hg', hn'⟩ := secretRow_eq_some.mp hr
      have hne : s'.id ≠ s.id := by
        intro he
        rw [Table.eq_of_conflict hs' hs (Or.inl he)] at hg' hn'
        exact hgn ⟨hg'.symm, hn'.symm⟩
      rw [Option.map_some, Option.bind_some, Option.bind_some, Db.advance_of_ne _ hne, hcur,
        if_neg (fun hc => hne hc.1.symm), Option.or_none]

/-- version を進めても `Complete` である。 -/
theorem complete_commit (hs : s ∈ db.secret)
    (hbound : ∀ v ∈ db.secretVersion, v.secretId = s.id → v.version ≤ s.currentVersion)
    (hothers : ∀ s' ∈ db.secret, s'.id ≠ s.id →
      (∃ v ∈ db.secretVersion, v.secretId = s'.id ∧ v.version = s'.currentVersion) ∧
      (∀ v ∈ db.secretVersion, v.secretId = s'.id → v.version ≤ s'.currentVersion) ∧
      0 < s'.currentVersion)
    (h : commitVersion db s.id s.currentVersion dv nonce ct now by_ = some (o, db')) :
    Complete db' := by
  obtain ⟨u, hg, hv, hu, -, rfl⟩ := commitVersion_eq_some h
  have hsame : ∀ s' ∈ db.secret, s'.id = s.id → s' = s := fun s' hs' he =>
    Table.eq_of_conflict hs' hs (Or.inl he)
  have hvers : ∀ {v : VersionRow}, v ∈ u ↔ v ∈ db.secretVersion ∨ v = _ := Table.mem_insert hu
  refine ⟨?_, ?_, ?_⟩
  · intro t ht
    obtain ⟨s', hs', rfl⟩ := mem_setCurrentVersion.mp ht
    by_cases he : s'.id = s.id
    · rw [hsame s' hs' he, Db.advance_self]
      exact ⟨_, hvers.mpr (Or.inr rfl), rfl, rfl⟩
    · rw [Db.advance_of_ne _ he]
      obtain ⟨v, hm, hi, hver⟩ := (hothers s' hs' he).1
      exact ⟨v, hvers.mpr (Or.inl hm), hi, hver⟩
  · intro t ht v hm
    obtain ⟨s', hs', rfl⟩ := mem_setCurrentVersion.mp ht
    by_cases he : s'.id = s.id
    · rw [hsame s' hs' he, Db.advance_self]
      intro hi
      rcases hvers.mp hm with hm | rfl
      · exact (hbound v hm hi).trans (Nat.le_succ _)
      · exact Nat.le_refl _
    · rw [Db.advance_of_ne _ he]
      intro hi
      rcases hvers.mp hm with hm | rfl
      · exact (hothers s' hs' he).2.1 v hm hi
      · exact absurd hi.symm he
  · intro t ht
    obtain ⟨s', hs', rfl⟩ := mem_setCurrentVersion.mp ht
    by_cases he : s'.id = s.id
    · rw [hsame s' hs' he, Db.advance_self]
      exact Nat.succ_pos _
    · rw [Db.advance_of_ne _ he]
      exact (hothers s' hs' he).2.2

/-- `(gid, name)` の現在の行だけが `row` に変わった database。 -/
structure SecretSet (db db' : Db) (gid : Nat) (name : String) (row : Option SecretDataRow) :
    Prop where
  complete : Complete db'
  current : ∀ g n, secretDataCurrent db' g n =
    if g = gid ∧ n = name then row else secretDataCurrent db g n

/-- 新しい secret の id を指す version の行はまだ無い。 -/
theorem no_version_of_new (hnew : ∀ s' ∈ db.secret, s'.id ≠ s.id) :
    ∀ v ∈ db.secretVersion, v.secretId ≠ s.id := by
  intro v hv he
  obtain ⟨s', hs', hid⟩ := db.versionOfSecret v hv
  exact hnew s' hs' (hid.trans he)

/-- 足した secret にはまだ version が無く、ほかの名前の検索には現れない。 -/
theorem insertSecret_spec {cur : Nat} {mid : Db}
    (h : db.insertSecret gid name cur = some (sid, mid)) :
    (∀ s, s ∈ mid.secret ↔ s ∈ db.secret ∨ s = ⟨sid, gid, name, cur⟩) ∧
      mid.secretVersion = db.secretVersion ∧ (∀ v ∈ db.secretVersion, v.secretId ≠ sid) ∧
      ∀ g n, ¬ (g = gid ∧ n = name) → secretDataCurrent mid g n = secretDataCurrent db g n := by
  obtain ⟨t, hg, hv, ht, rfl⟩ := insertSecret_eq_some h
  refine ⟨fun s => Table.mem_insert ht, rfl, ?_, fun g n hgn => ?_⟩
  · refine no_version_of_new (s := ⟨sid, gid, name, cur⟩) fun s' hs' hid => ?_
    exact (Table.insert_eq_some_iff.mp ht).1 s' hs' (Or.inl hid)
  · have hrow : secretRow (db.withSecrets t db.secretVersion hg hv) g n = secretRow db g n := by
      refine (Table.find?_insert ht _).trans ?_
      rw [if_neg, Option.or_none]
      · rfl
      · simp only [Bool.and_eq_true, beq_iff_eq]
        exact fun hc => hgn ⟨hc.1.symm, hc.2.symm⟩
    unfold secretDataCurrent
    rw [hrow]
    rfl

/-- 通った Put は、版を一つ進めて、その行だけを置く。 -/
theorem putSecret_applied (hc : Complete db) {v : Nat}
    (h : putSecret db gid name e dv nonce ct now by_ = some (.applied v, db')) :
    v = e + 1 ∧ (secretVersion db gid name).getD 0 = e ∧
      SecretSet db db' gid name (some ⟨v, dv, nonce, ct, now, by_⟩) := by
  unfold putSecret at h
  cases hs : secretRow db gid name with
  | some s =>
    obtain ⟨hm, rfl, rfl⟩ := secretRow_eq_some.mp hs
    rw [hs] at h
    dsimp only at h
    split at h
    · cases h
    · next he =>
      have he : s.currentVersion = e := not_not.mp he
      subst he
      obtain ⟨-, -, -, -, ho, -⟩ := commitVersion_eq_some h
      cases ho
      refine ⟨rfl, by rw [secretVersion, hs]; rfl, ⟨?_, ?_⟩⟩
      · exact complete_commit hm (hc.bounded s hm)
          (fun s' hs' _ => ⟨hc.current s' hs', hc.bounded s' hs', hc.positive s' hs'⟩) h
      · exact secretDataCurrent_commit hm (hc.bounded s hm) h
  | none =>
    rw [hs] at h
    dsimp only at h
    split at h
    · cases h
    · next he =>
      have he : e = 0 := not_not.mp he
      subst he
      obtain ⟨⟨sid, mid⟩, hmid, h⟩ := Option.bind_eq_some_iff.mp h
      obtain ⟨hrows, hvers, hnov, hother⟩ := insertSecret_spec hmid
      have hmem := (hrows _).mpr (Or.inr rfl)
      have hbound : ∀ w ∈ mid.secretVersion, w.secretId = sid → w.version ≤ 0 :=
        fun w hw hi => absurd hi (hnov w (hvers ▸ hw))
      obtain ⟨-, -, -, -, ho, -⟩ := commitVersion_eq_some h
      cases ho
      refine ⟨rfl, by rw [secretVersion, hs]; rfl,
        complete_commit hmem hbound (fun s' hs' hne => ?_) h, fun g n => ?_⟩
      · rcases (hrows s').mp hs' with hs' | rfl
        · rw [hvers]
          exact ⟨hc.current s' hs', hc.bounded s' hs', hc.positive s' hs'⟩
        · exact absurd rfl hne
      · rw [secretDataCurrent_commit hmem hbound h]
        by_cases hgn : g = gid ∧ n = name
        · rw [if_pos hgn, if_pos hgn]
        · rw [if_neg hgn, if_neg hgn, hother g n hgn]

/-- 退けた Put は、今の版を返し、何も変えない。 -/
theorem putSecret_conflict {c : Nat}
    (h : putSecret db gid name e dv nonce ct now by_ = some (.conflict c, db')) :
    db' = db ∧ c = (secretVersion db gid name).getD 0 ∧ e ≠ c := by
  unfold putSecret at h
  cases hs : secretRow db gid name with
  | some s =>
    rw [hs] at h
    dsimp only at h
    split at h
    · next he =>
      cases h
      exact ⟨rfl, by rw [secretVersion, hs]; rfl, fun hc => he hc.symm⟩
    · obtain ⟨_, _, _, _, ho, _⟩ := commitVersion_eq_some h
      cases ho
  | none =>
    rw [hs] at h
    dsimp only at h
    split at h
    · next he =>
      cases h
      exact ⟨rfl, by rw [secretVersion, hs]; rfl, he⟩
    · obtain ⟨_, _, h⟩ := Option.bind_eq_some_iff.mp h
      obtain ⟨_, _, _, _, ho, _⟩ := commitVersion_eq_some h
      cases ho

section Delete

variable {s : SecretRow}

theorem mem_secret_deleteSecret {i : Nat} {s' : SecretRow} :
    s' ∈ (db.deleteSecret (·.id == i)).secret ↔ s' ∈ db.secret ∧ s'.id ≠ i := by
  show s' ∈ db.secret.delete _ ↔ _
  rw [Table.mem_delete, beq_eq_false_iff_ne]

/-- secret を消すと、その version の行だけが一緒に消える。 -/
theorem mem_version_deleteSecret (hm : s ∈ db.secret) {v : VersionRow} :
    v ∈ (db.deleteSecret (·.id == s.id)).secretVersion ↔
      v ∈ db.secretVersion ∧ v.secretId ≠ s.id := by
  show v ∈ db.secretVersion.cascade _ _ _ _ ↔ _
  rw [Table.mem_cascade]
  refine and_congr_right fun _ => ⟨fun hall hi => ?_, fun hne s' hs' hi => ?_⟩
  · exact absurd (hall s hm hi.symm) (by simp)
  · rw [beq_eq_false_iff_ne]
    exact fun hid => hne (hi.symm.trans hid)

theorem Complete.deleteSecret (hc : Complete db) (hm : s ∈ db.secret) :
    Complete (db.deleteSecret (·.id == s.id)) where
  current := by
    intro s' hs'
    obtain ⟨hs', hne⟩ := mem_secret_deleteSecret.mp hs'
    obtain ⟨v, hv, hi, hcur⟩ := hc.current s' hs'
    exact ⟨v, (mem_version_deleteSecret hm).mpr ⟨hv, by rw [hi]; exact hne⟩, hi, hcur⟩
  bounded := fun s' hs' v hv =>
    hc.bounded s' (mem_secret_deleteSecret.mp hs').1 v ((mem_version_deleteSecret hm).mp hv).1
  positive := fun s' hs' => hc.positive s' (mem_secret_deleteSecret.mp hs').1

theorem secretDataCurrent_deleteSecret (hm : s ∈ db.secret) (g : Nat) (n : String) :
    secretDataCurrent (db.deleteSecret (·.id == s.id)) g n =
      if g = s.groupId ∧ n = s.name then none else secretDataCurrent db g n := by
  refine Option.ext fun row => ?_
  by_cases hgn : g = s.groupId ∧ n = s.name
  · obtain ⟨rfl, rfl⟩ := hgn
    rw [if_pos ⟨rfl, rfl⟩, secretDataCurrent_eq_some]
    simp only [reduceCtorEq, iff_false]
    rintro ⟨s', hs', hg, hn, -⟩
    obtain ⟨hs', hne⟩ := mem_secret_deleteSecret.mp hs'
    exact hne (congrArg SecretRow.id (Table.eq_of_conflict hs' hm (Or.inr ⟨hg, hn⟩)))
  · rw [if_neg hgn, secretDataCurrent_eq_some, secretDataCurrent_eq_some]
    constructor
    · rintro ⟨s', hs', hg, hn, v, hv, hrest⟩
      exact ⟨s', (mem_secret_deleteSecret.mp hs').1, hg, hn, v,
        ((mem_version_deleteSecret hm).mp hv).1, hrest⟩
    · rintro ⟨s', hs', hg, hn, v, hv, hi, hrest⟩
      have hne : s'.id ≠ s.id := by
        intro hid
        rw [Table.eq_of_conflict hs' hm (Or.inl hid)] at hg hn
        exact hgn ⟨hg.symm, hn.symm⟩
      exact ⟨s', mem_secret_deleteSecret.mpr ⟨hs', hne⟩, hg, hn, v,
        (mem_version_deleteSecret hm).mpr ⟨hv, by rw [hi]; exact hne⟩, hi, hrest⟩

end Delete

/-- 通った Delete は、その行だけを消す。 -/
theorem deleteSecret_applied (hc : Complete db) {v : Nat}
    (h : deleteSecret db gid name e = (.applied v, db')) :
    secretVersion db gid name = some e ∧ SecretSet db db' gid name none := by
  unfold Store.deleteSecret at h
  cases hs : secretRow db gid name with
  | none => rw [hs] at h; cases h
  | some s =>
    obtain ⟨hm, rfl, rfl⟩ := secretRow_eq_some.mp hs
    rw [hs] at h
    dsimp only at h
    split at h
    · cases h
    · next he =>
      cases h
      refine ⟨by rw [secretVersion, hs, Option.map_some, not_not.mp he], hc.deleteSecret hm, ?_⟩
      exact secretDataCurrent_deleteSecret hm

/-- 退けた Delete は、今の版を返し、何も変えない。 -/
theorem deleteSecret_conflict {c : Nat} (h : deleteSecret db gid name e = (.conflict c, db')) :
    db' = db ∧ c = (secretVersion db gid name).getD 0 ∧ secretVersion db gid name ≠ some e := by
  unfold deleteSecret at h
  cases hs : secretRow db gid name with
  | none =>
    rw [hs] at h
    cases h
    exact ⟨rfl, by rw [secretVersion, hs]; rfl, by rw [secretVersion, hs]; exact fun h => nomatch h⟩
  | some s =>
    rw [hs] at h
    dsimp only at h
    split at h
    · next he =>
      cases h
      refine ⟨rfl, by rw [secretVersion, hs]; rfl, ?_⟩
      rw [secretVersion, hs]
      exact fun hc => he (Option.some.inj hc)
    · cases h

theorem insertVersion_succeeds {v : VersionRow} (hs : ∃ s ∈ db.secret, s.id = v.secretId)
    (hnew : ∀ w ∈ db.secretVersion, w.secretId = v.secretId → w.version ≠ v.version) :
    ∃ db', db.insertVersion v = some db' := by
  obtain ⟨u, hu⟩ := @Table.insert_isSome _ _ db.secretVersion v fun w hw hc => hnew w hw hc.1 hc.2
  unfold Db.insertVersion
  rw [dif_pos hs]
  split
  · next hn => rw [hu] at hn; cases hn
  · exact ⟨_, rfl⟩

theorem insertSecret_succeeds (hg : ∃ g ∈ db.secretGroup, g.id = gid)
    (hn : secretRow db gid name = none) (cur : Nat) :
    ∃ sid db', db.insertSecret gid name cur = some (sid, db') := by
  obtain ⟨t, ht⟩ := @Table.insert_isSome _ _ db.secret (db.newSecret gid name cur) (by
    rintro s hs (hid | ⟨hg', hn'⟩)
    · exact nextRowid_not_mem _ (List.mem_map.mpr ⟨s, hs, hid⟩)
    · exact secretRow_eq_none.mp hn s hs hg' hn')
  unfold Db.insertSecret
  rw [dif_pos hg]
  split
  · next hnone => rw [ht] at hnone; cases hnone
  · exact ⟨_, _, rfl⟩

theorem commitVersion_succeeds (hs : s ∈ db.secret)
    (hbound : ∀ v ∈ db.secretVersion, v.secretId = s.id → v.version ≤ s.currentVersion) (dv : Nat)
    (nonce ct : Bytes) (now : Int) (by_ : String) :
    ∃ db', commitVersion db s.id s.currentVersion dv nonce ct now by_ =
      some (.applied (s.currentVersion + 1), db') := by
  obtain ⟨mid, hmid⟩ := @insertVersion_succeeds db
    ⟨s.id, s.currentVersion + 1, dv, nonce, ct, now, by_⟩ ⟨s, hs, rfl⟩ (by
      intro w hw hi hver
      have hle := hbound w hw hi
      rw [hver] at hle
      exact Nat.not_succ_le_self _ hle)
  unfold commitVersion
  rw [hmid]
  exact ⟨_, rfl⟩

/-- 期待した version が現在の version なら、書き込みは制約に触れず成功する。 -/
theorem putSecret_succeeds (hc : Complete db) (hg : ∃ g ∈ db.secretGroup, g.id = gid) :
    ∃ db', putSecret db gid name ((secretVersion db gid name).getD 0) dv nonce ct now by_ =
      some (.applied ((secretVersion db gid name).getD 0 + 1), db') := by
  unfold putSecret
  cases hs : secretRow db gid name with
  | some s =>
    have hv : (secretVersion db gid name).getD 0 = s.currentVersion := by rw [secretVersion, hs]; rfl
    rw [hv]
    dsimp only
    rw [if_neg (fun h => h rfl)]
    have hm := (secretRow_eq_some.mp hs).1
    exact commitVersion_succeeds hm (hc.bounded s hm) dv nonce ct now by_
  | none =>
    have hv : (secretVersion db gid name).getD 0 = 0 := by rw [secretVersion, hs]; rfl
    rw [hv]
    dsimp only
    rw [if_neg (fun h => h rfl)]
    obtain ⟨sid, mid, hmid⟩ := insertSecret_succeeds hg hs 0
    obtain ⟨hrows, hvers, hnov, -⟩ := insertSecret_spec hmid
    obtain ⟨db', hdb'⟩ := commitVersion_succeeds ((hrows _).mpr (Or.inr rfl))
      (fun v hv hi => absurd hi (hnov v (hvers ▸ hv))) dv nonce ct now by_
    refine ⟨db', ?_⟩
    rw [hmid]
    exact hdb'

/-- 期待した version が外れていれば、何も書かずにいまの version を返す。 -/
theorem putSecret_of_ne (h : (secretVersion db gid name).getD 0 ≠ e) :
    putSecret db gid name e dv nonce ct now by_ =
      some (.conflict ((secretVersion db gid name).getD 0), db) := by
  unfold putSecret secretVersion at *
  cases hs : secretRow db gid name with
  | some s =>
    rw [hs] at h
    exact if_pos h
  | none =>
    rw [hs] at h
    exact if_pos fun he => h he.symm

theorem deleteSecret_outcome (db : Db) (gid e : Nat) (name : String) :
    (deleteSecret db gid name e).1 = if secretVersion db gid name = some e then .applied 0
      else .conflict ((secretVersion db gid name).getD 0) := by
  unfold deleteSecret secretVersion
  cases secretRow db gid name with
  | none => rfl
  | some s =>
    dsimp only [Option.map_some, Option.getD_some]
    by_cases he : s.currentVersion = e
    · rw [if_neg (not_not.mpr he), if_pos (congrArg some he)]
    · rw [if_pos he, if_neg (fun h => he (Option.some.inj h))]

/-! ## 変わる表 -/

theorem withSecrets_self (db : Db) : ∃ t u hg hv, db = db.withSecrets t u hg hv :=
  ⟨db.secret, db.secretVersion, db.secretInGroup, db.versionOfSecret, rfl⟩

theorem putSecret_only (h : putSecret db gid name e dv nonce ct now by_ = some (o, db')) :
    ∃ t u hg hv, db' = db.withSecrets t u hg hv := by
  unfold putSecret at h
  split at h
  · split at h
    · cases h
      exact withSecrets_self _
    · obtain ⟨_, _, _, _, _, rfl⟩ := commitVersion_eq_some h
      exact ⟨_, _, _, _, rfl⟩
  · split at h
    · cases h
      exact withSecrets_self _
    · obtain ⟨⟨sid, mid⟩, hmid, h⟩ := Option.bind_eq_some_iff.mp h
      obtain ⟨_, _, _, _, rfl⟩ := insertSecret_eq_some hmid
      obtain ⟨_, _, _, _, _, rfl⟩ := commitVersion_eq_some h
      exact ⟨_, _, _, _, rfl⟩

theorem deleteSecret_only (h : deleteSecret db gid name e = (o, db')) :
    ∃ t u hg hv, db' = db.withSecrets t u hg hv := by
  unfold deleteSecret at h
  split at h
  · cases h
    exact withSecrets_self _
  · split at h
    · cases h
      exact withSecrets_self _
    · cases h
      exact ⟨_, _, _, _, rfl⟩

end Store

end SecretBunker
