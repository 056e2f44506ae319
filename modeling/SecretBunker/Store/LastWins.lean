import SecretBunker.Store.Sync

/-!
# 有効な ACL

`effective_acl` は ACL を後ろから見て、名前と endpoint id の衝突を後の行に譲らせる。名前で落ちた行は
endpoint id を占めないが、endpoint id で落ちた行の名前は、短絡の手前でもう占められている。

1. 先頭に一行足した ACL の結果を、残りの ACL と残りの結果だけで言う（`effectiveAcl_cons`）。
2. 残る名前と endpoint id を、同じ名前の行のうち最後のもの（`lastHolders`）だけで言う。
3. 残る行を ACL の中の位置で数え、落ちた行ごとに、譲った先の行を位置の後ろに探す。
-/

namespace SecretBunker

namespace Store

/-! ## 一行ずつの見方 -/

/-- 最後に見る行は、占められた名前と、残った行の endpoint id だけを避ける。 -/
theorem scanAcl_concat (acl : List AclEntry) (e : AclEntry) (names endpoints : List String) :
    scanAcl (acl ++ [e]) names endpoints =
      scanAcl acl names endpoints ++
        if e.identityName ∈ acl.map (·.identityName) ++ names ∨
            e.endpointId ∈ (scanAcl acl names endpoints).map (·.endpointId) ++ endpoints
        then [] else [e] := by
  induction acl generalizing names endpoints with
  | nil =>
    by_cases hn : e.identityName ∈ names
    · simp [scanAcl, hn]
    · by_cases he : e.endpointId ∈ endpoints
      · simp [scanAcl, hn, he]
      · simp [scanAcl, hn, he]
  | cons a rest ih =>
    rw [List.cons_append, scanAcl, scanAcl]
    by_cases hn : a.identityName ∈ names
    · -- もう占められた名前は、集まりを広げない
      rw [if_pos hn, if_pos hn, ih]
      congr 2
      simp only [List.map_cons, List.mem_append, List.mem_cons, eq_iff_iff]
      grind
    · rw [if_neg hn, if_neg hn]
      by_cases he : a.endpointId ∈ endpoints
      · rw [if_pos he, if_pos he, ih]
        congr 2
        simp only [List.map_cons, List.mem_append, List.mem_cons, eq_iff_iff]
        grind
      · rw [if_neg he, if_neg he, ih, List.cons_append]
        congr 3
        simp only [List.map_cons, List.mem_append, List.mem_cons, eq_iff_iff]
        grind

/-- 先頭の行は、後のどの行とも名前が違い、後に残る行と endpoint id が違うときに残る。 -/
theorem effectiveAcl_cons (e : AclEntry) (rest : List AclEntry) :
    effectiveAcl (e :: rest) =
      if e.identityName ∈ rest.map (·.identityName) ∨
          e.endpointId ∈ (effectiveAcl rest).map (·.endpointId)
      then effectiveAcl rest else e :: effectiveAcl rest := by
  unfold effectiveAcl
  rw [List.reverse_cons, scanAcl_concat, List.reverse_append]
  simp only [List.append_nil, List.map_reverse, List.mem_reverse]
  split
  · rfl
  · rfl

theorem effectiveAcl_sublist (acl : List AclEntry) : (effectiveAcl acl).Sublist acl := by
  induction acl with
  | nil => exact .slnil
  | cons e rest ih =>
    rw [effectiveAcl_cons]
    split
    · exact ih.cons e
    · exact ih.cons_cons e

theorem effectiveAcl_ne_nil (e : AclEntry) (rest : List AclEntry) :
    effectiveAcl (e :: rest) ≠ [] := by
  induction rest generalizing e with
  | nil => exact List.cons_ne_nil e []
  | cons a rest ih =>
    rw [effectiveAcl_cons]
    split
    · exact ih a
    · exact List.cons_ne_nil _ _

theorem getLast?_effectiveAcl (acl : List AclEntry) :
    (effectiveAcl acl).getLast? = acl.getLast? := by
  induction acl with
  | nil => rfl
  | cons e rest ih =>
    rw [effectiveAcl_cons]
    cases rest with
    | nil => rfl
    | cons a rest =>
      rw [List.getLast?_cons_cons, ← ih]
      split
      · rfl
      · exact List.getLast?_cons_of_ne_nil (effectiveAcl_ne_nil a rest)

/-! ## 譲った先 -/

/-- 二つの行が名前か endpoint id を同じくする。 -/
def Collides (a b : AclEntry) : Prop :=
  a.identityName = b.identityName ∨ a.endpointId = b.endpointId

/-- `kept` は、`acl` の衝突を後の行を優先して解いたものである。同じ行が二度現れても区別できるように、
残った行は位置と組にして言う。 -/
structure LastWins (acl kept : List AclEntry) : Prop where
  names : (kept.map (·.identityName)).Nodup
  endpoints : (kept.map (·.endpointId)).Nodup
  last : kept.getLast? = acl.getLast?
  /-- 落ちた行には、衝突する後の行が残っている。 -/
  yielded : ∃ places : List (AclEntry × Nat), places.Sublist acl.zipIdx ∧
    places.map Prod.fst = kept ∧
    ∀ p ∈ acl.zipIdx, p ∉ places → ∃ q ∈ places, p.2 < q.2 ∧ Collides p.1 q.1

/-- 同じ名前の行のうち最後のものだけを残した ACL。 -/
def lastHolders : List AclEntry → List AclEntry
  | [] => []
  | e :: rest =>
    if e.identityName ∈ rest.map (·.identityName) then lastHolders rest
    else e :: lastHolders rest

/-- `name` を名乗る最後の行が、さらに後の、自分の名前では最後の行と endpoint id を同じくする。
その行は endpoint id のために落ちるが、名前はもう占めている。 -/
def Shadowed (name : String) : List AclEntry → Prop
  | [] => False
  | a :: rest =>
    if name ∈ rest.map (·.identityName) then Shadowed name rest
    else a.identityName = name ∧ a.endpointId ∈ (lastHolders rest).map (·.endpointId)

instance decidableShadowed (name : String) : (acl : List AclEntry) → Decidable (Shadowed name acl)
  | [] => inferInstanceAs (Decidable False)
  | a :: rest =>
    have := decidableShadowed name rest
    inferInstanceAs (Decidable (if name ∈ rest.map (·.identityName) then Shadowed name rest
      else a.identityName = name ∧ a.endpointId ∈ (lastHolders rest).map (·.endpointId)))

/-- 後の行の名前を名乗る行は、その名前の最後の行が endpoint id のために落ちるなら、自分の endpoint id
を、後の、自分の名前では最後の行と同じくする。 -/
def Unchained : List AclEntry → Prop
  | [] => True
  | e :: rest =>
    (Shadowed e.identityName rest → e.endpointId ∈ (lastHolders rest).map (·.endpointId)) ∧
      Unchained rest

instance decidableUnchained : (acl : List AclEntry) → Decidable (Unchained acl)
  | [] => inferInstanceAs (Decidable True)
  | e :: rest =>
    have := decidableUnchained rest
    inferInstanceAs (Decidable ((Shadowed e.identityName rest →
      e.endpointId ∈ (lastHolders rest).map (·.endpointId)) ∧ Unchained rest))

variable {acl : List AclEntry}

/-- endpoint id のために落ちる行は、すでにある endpoint id しか持たない。だから残る endpoint id は、
名前だけを見て決まる。 -/
theorem mem_endpoints_effectiveAcl {peer : String} :
    peer ∈ (effectiveAcl acl).map (·.endpointId) ↔
      peer ∈ (lastHolders acl).map (·.endpointId) := by
  induction acl with
  | nil => exact Iff.rfl
  | cons e rest ih =>
    rw [effectiveAcl_cons, lastHolders]
    by_cases hn : e.identityName ∈ rest.map (·.identityName)
    · rw [if_pos (Or.inl hn), if_pos hn, ih]
    · rw [if_neg hn, List.map_cons, List.mem_cons, ← ih]
      split
      · next hdrop =>
        have he := hdrop.resolve_left hn
        exact ⟨Or.inr, fun h => h.elim (fun h => h ▸ he) id⟩
      · rw [List.map_cons, List.mem_cons]

/-- 残る名前は、最後の行が endpoint id のために落ちない名前である。 -/
theorem mem_names_effectiveAcl {name : String} :
    name ∈ (effectiveAcl acl).map (·.identityName) ↔
      name ∈ acl.map (·.identityName) ∧ ¬ Shadowed name acl := by
  induction acl with
  | nil => simp [effectiveAcl, scanAcl]
  | cons e rest ih =>
    simp only [effectiveAcl_cons, Shadowed, List.map_cons, List.mem_cons,
      mem_endpoints_effectiveAcl]
    by_cases hlater : name ∈ rest.map (·.identityName)
    · rw [if_pos hlater]
      split
      · simp only [ih, hlater, or_true]
      · next hkeep =>
        -- 先頭の行が残るのは、その名前が後に無いときに限る
        have hne : name ≠ e.identityName := fun h => hkeep (Or.inl (h ▸ hlater))
        rw [List.map_cons, List.mem_cons, ih]
        simp only [hne, hlater, false_or, or_true]
    · rw [if_neg hlater]
      have hgone : name ∉ (effectiveAcl rest).map (·.identityName) := fun h => hlater (ih.mp h).1
      by_cases hn : name = e.identityName
      · subst hn
        by_cases he : e.endpointId ∈ (lastHolders rest).map (·.endpointId)
        · simp [he, hgone]
        · rw [if_neg (not_or.mpr ⟨hlater, he⟩)]
          simp [he]
      · split
        · simp [hgone, hn, hlater]
        · rw [List.map_cons, List.mem_cons]
          simp [hgone, hn, hlater]

theorem Shadowed.mem {name : String} (h : Shadowed name acl) : name ∈ acl.map (·.identityName) := by
  cases acl with
  | nil => exact h.elim
  | cons e rest =>
    rw [Shadowed] at h
    split at h
    · next hlater => exact List.mem_cons_of_mem _ hlater
    · exact List.mem_cons.mpr (Or.inl h.1.symm)

/-- 残った行は、その名前の行を含む後ろの部分だけを見ても残る。 -/
theorem mem_effectiveAcl_of_append {pre : List AclEntry} {x : AclEntry}
    (h : x ∈ effectiveAcl (pre ++ acl)) (hn : x.identityName ∈ acl.map (·.identityName)) :
    x ∈ effectiveAcl acl := by
  induction pre with
  | nil => exact h
  | cons e pre ih =>
    rw [List.cons_append, effectiveAcl_cons] at h
    split at h
    · exact ih h
    · next hkeep =>
      rcases List.mem_cons.mp h with rfl | h
      · rw [List.map_append] at hkeep
        exact absurd (Or.inl (List.mem_append_right _ hn)) hkeep
      · exact ih h

theorem unchained_of_suffixes
    (h : ∀ pre e rest, acl = pre ++ e :: rest → Shadowed e.identityName rest →
      e.endpointId ∈ (lastHolders rest).map (·.endpointId)) : Unchained acl := by
  induction acl with
  | nil => trivial
  | cons e rest ih =>
    exact ⟨h [] e rest rfl, ih fun pre a post hsplit => h (e :: pre) a post (by rw [hsplit]; rfl)⟩

/-- 残った行の位置。先頭が落ちるなら、衝突する行は残りの中に残っている。 -/
theorem Unchained.exists_places (h : Unchained acl) (k : Nat) :
    ∃ places : List (AclEntry × Nat), places.Sublist (acl.zipIdx k) ∧
      places.map Prod.fst = effectiveAcl acl ∧
      ∀ p ∈ acl.zipIdx k, p ∉ places → ∃ q ∈ places, p.2 < q.2 ∧ Collides p.1 q.1 := by
  induction acl generalizing k with
  | nil => exact ⟨[], .slnil, rfl, fun p hp => absurd hp List.not_mem_nil⟩
  | cons e rest ih =>
    obtain ⟨places, hsub, hmap, hyield⟩ := ih h.2 (k + 1)
    rw [List.zipIdx_cons, effectiveAcl_cons]
    by_cases hdrop : e.identityName ∈ rest.map (·.identityName) ∨
        e.endpointId ∈ (effectiveAcl rest).map (·.endpointId)
    · rw [if_pos hdrop]
      refine ⟨places, hsub.cons _, hmap, fun p hp hnot => ?_⟩
      rcases List.mem_cons.mp hp with rfl | hp
      · have hkept : ∃ x ∈ effectiveAcl rest, Collides e x := by
          by_cases hn : e.identityName ∈ (effectiveAcl rest).map (·.identityName)
          · obtain ⟨x, hx, hxn⟩ := List.mem_map.mp hn
            exact ⟨x, hx, Or.inl hxn.symm⟩
          · have he : e.endpointId ∈ (effectiveAcl rest).map (·.endpointId) := by
              refine hdrop.elim (fun hlater => mem_endpoints_effectiveAcl.mpr (h.1 ?_)) id
              rw [mem_names_effectiveAcl, not_and, not_not] at hn
              exact hn hlater
            obtain ⟨x, hx, hxe⟩ := List.mem_map.mp he
            exact ⟨x, hx, Or.inr hxe.symm⟩
        obtain ⟨x, hx, hc⟩ := hkept
        obtain ⟨q, hq, rfl⟩ := List.mem_map.mp (hmap ▸ hx)
        exact ⟨q, hq, List.le_snd_of_mem_zipIdx (hsub.subset hq), hc⟩
      · exact hyield p hp hnot
    · rw [if_neg hdrop]
      refine ⟨(e, k) :: places, hsub.cons_cons _, by rw [List.map_cons, hmap], fun p hp hnot => ?_⟩
      rw [List.mem_cons, not_or] at hnot
      obtain ⟨q, hq, hlt⟩ := hyield p ((List.mem_cons.mp hp).resolve_left hnot.1) hnot.2
      exact ⟨q, List.mem_cons_of_mem _ hq, hlt⟩

/-- 譲った先が残っているなら、名前のために落ちた行の endpoint id は後に残る。 -/
theorem LastWins.unchained (h : LastWins acl (effectiveAcl acl)) : Unchained acl := by
  obtain ⟨places, hsub, hmap, hyield⟩ := h.yielded
  have hkept : ∀ q ∈ places, q.1 ∈ effectiveAcl acl := fun q hq => hmap ▸ List.mem_map_of_mem hq
  refine unchained_of_suffixes fun pre e rest hsplit hshadow => ?_
  have hgone : e.identityName ∉ (effectiveAcl rest).map (·.identityName) := fun hn =>
    (mem_names_effectiveAcl.mp hn).2 hshadow
  have hlater : e.identityName ∈ rest.map (·.identityName) := hshadow.mem
  have hstays : ∀ x ∈ effectiveAcl acl, x.identityName ∈ rest.map (·.identityName) →
      x ∈ effectiveAcl rest := by
    intro x hx hn
    rw [hsplit, List.append_cons] at hx
    exact mem_effectiveAcl_of_append hx hn
  have hplace : (e, pre.length) ∈ acl.zipIdx := by
    rw [hsplit, List.zipIdx_append]
    simp
  -- 名前が残らない以上、この行は落ちていて、譲った先とは endpoint id でぶつかる
  have hdropped : (e, pre.length) ∉ places := fun hp =>
    hgone (List.mem_map_of_mem (hstays e (hkept _ hp) hlater))
  obtain ⟨q, hq, hlt, hc⟩ := hyield _ hplace hdropped
  have hqrest : q.1 ∈ rest := by
    have hmem := hsub.subset hq
    rw [hsplit, List.zipIdx_append, List.mem_append, Nat.zero_add, List.zipIdx_cons,
      List.mem_cons] at hmem
    rcases hmem with hmem | rfl | hmem
    · exact absurd (List.snd_lt_of_mem_zipIdx hmem) (by simp; omega)
    · exact absurd hlt (lt_irrefl _)
    · exact List.fst_mem_of_mem_zipIdx hmem
  have hqkept := hstays q.1 (hkept q hq) (List.mem_map_of_mem hqrest)
  rcases hc with hc | hc
  · exact absurd (hc ▸ List.mem_map_of_mem hqkept) hgone
  · rw [hc]
    exact mem_endpoints_effectiveAcl.mp (List.mem_map_of_mem hqkept)

/-- **ACL の衝突が後の行を優先して解かれるのは、鎖の無いときちょうどである。** 残る行が順序を保ち、
名前も endpoint id も重ならず、最後の行を含むことは、どの ACL でも成り立つ。落ちた行に、衝突する後の行
が残っていることが、鎖の無いことに当たる。 -/
theorem effectiveAcl_last_wins (acl : List AclEntry) :
    ((effectiveAcl acl).Sublist acl ∧ ((effectiveAcl acl).map (·.identityName)).Nodup ∧
      ((effectiveAcl acl).map (·.endpointId)).Nodup ∧
      (effectiveAcl acl).getLast? = acl.getLast?) ∧
    (LastWins acl (effectiveAcl acl) ↔ Unchained acl) := by
  have hnames := effectiveAcl_names_nodup acl
  have hendpoints := effectiveAcl_endpoints_nodup acl
  have hlast := getLast?_effectiveAcl acl
  refine ⟨⟨effectiveAcl_sublist acl, hnames, hendpoints, hlast⟩, LastWins.unchained, fun h => ?_⟩
  exact ⟨hnames, hendpoints, hlast, h.exists_places 0⟩

-- 真ん中の行を介した鎖があっても、先頭の行の endpoint id が後に残れば、譲った先はある
example : Unchained [⟨"alice", "e1", 1⟩, ⟨"alice", "e2", 1⟩, ⟨"bob", "e2", 1⟩, ⟨"bob", "e1", 1⟩] := by
  decide

/-- 前の行と名前を、後の行と endpoint id を分かち合う行を挟むと、前の行は譲った先も無いまま落ちる。 -/
theorem effectiveAcl_chain_drops_member :
    effectiveAcl [⟨"alice", "e1", 1⟩, ⟨"alice", "e2", 1⟩, ⟨"bob", "e2", 3⟩] = [⟨"bob", "e2", 3⟩] ∧
      ¬ LastWins [⟨"alice", "e1", 1⟩, ⟨"alice", "e2", 1⟩, ⟨"bob", "e2", 3⟩]
        (effectiveAcl [⟨"alice", "e1", 1⟩, ⟨"alice", "e2", 1⟩, ⟨"bob", "e2", 3⟩]) := by
  have hkept : effectiveAcl [⟨"alice", "e1", 1⟩, ⟨"alice", "e2", 1⟩, ⟨"bob", "e2", 3⟩] =
      [⟨"bob", "e2", 3⟩] := by decide
  refine ⟨hkept, fun h => ?_⟩
  obtain ⟨places, -, hmap, hyield⟩ := h.yielded
  rw [hkept] at hmap
  have hbob : ∀ p ∈ places, p.1 = ⟨"bob", "e2", 3⟩ := fun p hp =>
    List.mem_singleton.mp (hmap ▸ List.mem_map_of_mem hp)
  obtain ⟨q, hq, -, hc⟩ := hyield (⟨"alice", "e1", 1⟩, 0) List.mem_cons_self fun hp =>
    absurd (hbob _ hp) (by decide)
  rw [hbob q hq] at hc
  rcases hc with hc | hc
  · exact absurd hc (by decide)
  · exact absurd hc (by decide)

end Store

end SecretBunker
