import SecretBunker.Server.Refinement

/-!
# compare-and-set と間に挟まる書き込み

Get で読んだ version を期待した Put が成功したとき、その間に何が起きえたか。
version は削除のあと 1 から数え直すので、番号が同じでも値が同じとは限らない。
削除が挟まらなければ、置き換えられる値は読んだ値である。
-/

namespace SecretBunker

open Relational Store Reference

variable {prim : Primitives} {db : Db} {inner : Inner} {amb : Ambient}

/-- `(group, name)` への成功した Put。 -/
def putOn (group name : String) : Node.Op → Option Response → Bool
  | .handle _ _ (.put g n _ _), some (.version _) => g == group && n == name
  | _, _ => false

/-- `(group, name)` の成功した Delete。 -/
def deleteOn (group name : String) : Node.Op → Option Response → Bool
  | .handle _ _ (.delete g n _), some .ok => g == group && n == name
  | _, _ => false

/-- 列のどこかの一歩が、操作と応答についての `event` を満たす。 -/
def occurs (prim : Primitives) (event : Node.Op → Option Response → Bool) (db : Db) :
    List (Node.Op × Ambient) → Bool
  | [] => false
  | x :: rest =>
    event x.1 (Node.step prim db x.1 x.2).1 || occurs prim event (Node.step prim db x.1 x.2).2 rest

/-! ## 一歩 -/

variable {group name : String} {gid : Nat}

theorem putOn_eq_false {op : Node.Op} {resp : Option Response}
    (h : ∀ key remote req r, op = .handle key remote req → resp = some r → ¬ Writes req r) :
    putOn group name op resp = false := by
  unfold putOn
  split
  · exact absurd trivial (h _ _ _ _ rfl rfl)
  · rfl

/-- 削除でない一歩は、現在の行を保つか、version を増やす。 -/
theorem step_without_delete (hc : Complete db) (hg : groupId db group = some gid) (op : Node.Op)
    (amb : Ambient) (hdel : deleteOn group name op (Node.step prim db op amb).1 = false) :
    (putOn group name op (Node.step prim db op amb).1 = false ∧
      secretDataCurrent (Node.step prim db op amb).2 gid name = secretDataCurrent db gid name) ∨
    (secretVersion db gid name).getD 0 <
      (secretVersion (Node.step prim db op amb).2 gid name).getD 0 := by
  have hc' := @complete_step prim db op amb hc
  rcases @step_cases prim db op amb with ⟨key, remote, req, inner, rfl, -, hstep⟩ | ⟨hnone, hsame, -⟩
  · have hsec := @secretStep_handle prim db inner amb hc remote req
    rw [hstep] at hdel hc' ⊢
    generalize (Bunker.handle prim inner amb db remote req).response = resp at hdel hsec ⊢
    generalize (Bunker.handle prim inner amb db remote req).db = db' at hsec hc' ⊢
    cases hsec with
    | keep same quiet =>
      refine Or.inl ⟨putOn_eq_false ?_, same.secretDataCurrent gid name⟩
      rintro _ _ _ _ ⟨⟩ ⟨⟩
      exact quiet
    | @put group' name' _ _ e gid' _ _ located expected _ _ stored =>
      by_cases hsame : gid = gid' ∧ name = name'
      · obtain ⟨rfl, rfl⟩ := hsame
        refine Or.inr ?_
        rw [hc'.secretVersion_eq, stored.current, if_pos ⟨rfl, rfl⟩, expected]
        exact Nat.lt_succ_self _
      · refine Or.inl ⟨?_, by rw [stored.current, if_neg hsame]⟩
        unfold putOn
        rw [Bool.and_eq_false_iff, beq_eq_false_iff_ne, beq_eq_false_iff_ne, ← not_and_or]
        rintro ⟨rfl, rfl⟩
        exact hsame ⟨Option.some.inj (hg.symm.trans located), rfl⟩
    | @delete group' name' _ gid' located _ removed =>
      refine Or.inl ⟨rfl, ?_⟩
      rw [removed.current, if_neg]
      rintro ⟨rfl, rfl⟩
      rw [groupId_inj hg located] at hdel
      simp [deleteOn] at hdel
  · rw [hnone]
    refine Or.inl ⟨putOn_eq_false ?_, hsame.secretDataCurrent gid name⟩
    rintro _ _ _ _ - ⟨⟩

/-! ## 列 -/

/-- 削除の無い列は、Put も無く現在の行を保つか、version を増やす。 -/
theorem exec_without_delete (laws : prim.Lawful) (hc : Consistent prim db)
    (hg : groupId db group = some gid) (ops : List (Node.Op × Ambient))
    (hdel : occurs prim (deleteOn group name) db ops = false) :
    (occurs prim (putOn group name) db ops = false ∧
      secretDataCurrent (Node.exec prim db ops) gid name = secretDataCurrent db gid name) ∨
    (secretVersion db gid name).getD 0 < (secretVersion (Node.exec prim db ops) gid name).getD 0 := by
  induction ops generalizing db with
  | nil => exact Or.inl ⟨rfl, rfl⟩
  | cons x rest ih =>
    obtain ⟨hdel₁, hdel₂⟩ := Bool.or_eq_false_iff.mp hdel
    have hc' := consistent_step laws db x.1 x.2 hc
    have hrest := ih hc' ((stable_step laws hc.keys x.1 x.2).groupId hg) hdel₂
    change _ ∨ _ < (secretVersion (Node.exec prim (Node.step prim db x.1 x.2).2 rest) gid name).getD 0
    rcases step_without_delete hc.secrets hg x.1 x.2 hdel₁ with ⟨hput, hrow⟩ | hlt
    · have hver : secretVersion (Node.step prim db x.1 x.2).2 gid name = secretVersion db gid name := by
        rw [hc'.secrets.secretVersion_eq, hc.secrets.secretVersion_eq, hrow]
      rw [hver, hrow] at hrest
      refine hrest.imp_left fun h => ⟨?_, h.2⟩
      unfold occurs
      rw [hput, h.1]
      rfl
    · refine Or.inr ?_
      rcases hrest with ⟨-, hrow⟩ | hlt'
      · have hend := consistent_exec laws hc' rest
        rw [hend.secrets.secretVersion_eq, hrow, ← hc'.secrets.secretVersion_eq]
        exact hlt
      · exact hlt.trans hlt'

/-- Put が成功したなら、期待した version がそのときの version である。 -/
theorem expected_of_put (hc : Complete db) {key : AgeIdentity} {remote : String} {value : Bytes}
    {e : UInt64} {v : Nat} (hg : groupId db group = some gid)
    (h : (Node.step prim db (.handle key remote (.put group name value e)) amb).1 =
      some (.version v)) : (secretVersion db gid name).getD 0 = e.toNat := by
  rcases @step_cases prim db (.handle key remote (.put group name value e)) amb with
    ⟨_, _, _, inner, hop, -, hstep⟩ | ⟨hnone, -⟩
  · cases hop
    have hsec := @secretStep_handle prim db inner amb hc remote (.put group name value e)
    rw [hstep] at h
    rw [Option.some.inj h] at hsec
    cases hsec with
    | keep _ quiet => exact absurd trivial quiet
    | put located expected _ _ _ =>
      obtain rfl := Option.some.inj (hg.symm.trans located)
      exact expected
  · rw [hnone] at h
    cases h

/-- 値を答えた Get の group には、その値の行がある。 -/
theorem represents_of_get (laws : prim.Lawful) (hc : Consistent prim db) {m : Map}
    (hsim : Simulates prim db m) {key : AgeIdentity} {remote : String} {x : Bytes} {n : Nat}
    (h : (Node.step prim db (.handle key remote (.get group name)) amb).1 = some (.secret x n)) :
    ∃ gid, groupId db group = some gid ∧ Represents prim db gid group name (some ⟨x, n⟩) := by
  rcases @step_cases prim db (.handle key remote (.get group name)) amb with
    ⟨_, _, _, inner, hop, hnew, hstep⟩ | ⟨hnone, -⟩
  · cases hop
    rw [hstep, get_answer laws hc.keys (matches_of_new laws hnew).1
      (fun gid hg => hsim.present group gid hg name)] at h
    split at h
    · cases hentry : m group name with
      | none => rw [hentry] at h; cases h
      | some entry =>
        rw [hentry] at h
        cases h
        cases hg : groupId db group with
        | none => rw [hsim.absent group hg name] at hentry; cases hentry
        | some gid => exact ⟨gid, rfl, hentry ▸ hsim.present group gid hg name⟩
    · cases h
  · rw [hnone] at h
    cases h

/-- 逆に、値の行があれば、認可を通った Get はその値を答える。 -/
theorem get_of_represents (laws : prim.Lawful) (hk : KeyWrap prim db) {entry : Option Entry}
    {key : AgeIdentity} {remote : String} {resp : Response} (hg : groupId db group = some gid)
    (hrep : Represents prim db gid group name entry)
    (hpass : passes db remote (.get group name) = true)
    (h : (Node.step prim db (.handle key remote (.get group name)) amb).1 = some resp) :
    resp = Reference.read entry := by
  rcases @step_cases prim db (.handle key remote (.get group name)) amb with
    ⟨_, _, _, inner, hop, hnew, hstep⟩ | ⟨hnone, -⟩
  · cases hop
    have hreps : ∀ gid', groupId db group = some gid' → Represents prim db gid' group name entry :=
      fun gid' hg' => Option.some.inj (hg.symm.trans hg') ▸ hrep
    rw [hstep, get_answer laws hk (matches_of_new laws hnew).1 hreps, if_pos hpass] at h
    exact (Option.some.inj h).symm
  · rw [hnone] at h
    cases h

theorem stable_exec (laws : prim.Lawful) (hk : KeyWrap prim db) (ops : List (Node.Op × Ambient)) :
    Stable prim db (Node.exec prim db ops) :=
  exec_relation laws .refl (fun _ _ _ h h' => h.trans h') (fun _ _ _ h => .of_turn laws h)
    (fun _ _ _ _ _ hk h => .of_recover laws hk h) hk ops

/--
**削除が挟まらない compare-and-set。** Get が `(x, n)` を答え、後の Put が `n` を期待して
成功し、その間に同じ secret の Delete が成功していないなら、その間に同じ secret への Put も
成功しておらず、Put の直前に読める値は `x` である。
-/
theorem put_replaces_value_read (laws : prim.Lawful) {op backup endpoint admin : String} {db₀ : Db}
    (hlen : endpoint.length = 64) (hinit : Node.init op backup endpoint admin = some db₀)
    (before between : List (Node.Op × Ambient)) {key key' : AgeIdentity}
    {client group name : String} {x value : Bytes} {n v : Nat} {e : UInt64} {amb amb' : Ambient}
    {mid : Db} (hget : Node.step prim (Node.exec prim db₀ before)
      (.handle key client (.get group name)) amb = (some (.secret x n), mid))
    (hput : (Node.step prim (Node.exec prim mid between)
      (.handle key' client (.put group name value e)) amb').1 = some (.version v))
    (he : e.toNat = n) (hdel : occurs prim (deleteOn group name) mid between = false) :
    occurs prim (putOn group name) mid between = false ∧
      ∀ key remote amb resp,
        passes (Node.exec prim mid between) remote (.get group name) = true →
          (Node.step prim (Node.exec prim mid between) (.handle key remote (.get group name))
            amb).1 = some resp → resp = .secret x n := by
  have hc : Consistent prim (Node.exec prim db₀ before) :=
    consistent_exec laws (consistent_init hlen hinit) before
  obtain ⟨m, hsim⟩ := simulates_some laws hlen hinit before
  generalize Node.exec prim db₀ before = db at hget hc hsim
  obtain ⟨gid, hg, hrep⟩ := represents_of_get laws hc hsim (congrArg Prod.fst hget)
  obtain rfl : (Node.step prim db (.handle key client (.get group name)) amb).2 = mid :=
    congrArg Prod.snd hget
  have hs := stable_exec laws hc.keys ((.handle key client (.get group name), amb) :: between)
  have hend := consistent_exec laws hc ((.handle key client (.get group name), amb) :: between)
  -- Get も列に入れて数える。Get は Put でも Delete でもない
  have hocc : occurs prim (deleteOn group name) db
      ((.handle key client (.get group name), amb) :: between) = false := hdel
  have hnow := (expected_of_put hend.secrets (hs.groupId hg) hput).trans he
  have hold : (secretVersion db gid name).getD 0 = n := by
    rw [hrep.version hc.secrets]
    rfl
  rcases exec_without_delete laws hc hg _ hocc with ⟨hnoput, hrow⟩ | hlt
  · refine ⟨hnoput, fun key remote amb resp hpass hresp => ?_⟩
    exact get_of_represents laws hend.keys (hs.groupId hg) (hrep.stable hs hrow) hpass hresp
  · rw [hold, hnow] at hlt
    exact absurd hlt (Nat.lt_irrefl n)

/-- 二人の client がいて、secret が version 1 で在る。 -/
def sampleShared : List (Node.Op × Ambient) :=
  sampleCalls [('a', .createGroup "g"), ('a', .addIdentity "bob" (samplePeer 'b') false),
    ('a', .grant "g" "bob" (permRead ||| permWrite)), ('a', .put "g" "n" [1] 0)]

/-- 管理者が secret を読む要求。 -/
def sampleGet : Node.Op := .handle ⟨"o"⟩ (samplePeer 'a') (.get "g" "n")

/-- Get の後の database。 -/
def sampleRead : Db :=
  (Node.step plain (Node.exec plain sampleDb sampleShared) sampleGet (sampleAmbient 9)).2

/-- もう一人の client が別の secret を書く。 -/
def sampleBetween : List (Node.Op × Ambient) := sampleCalls [('b', .put "g" "other" [5] 0)]

theorem put_replaces_value_read_sample :
    occurs plain (putOn "g" "n") sampleRead sampleBetween = false ∧
      ∀ resp, (Node.step plain (Node.exec plain sampleRead sampleBetween) sampleGet
        (sampleAmbient 9)).1 = some resp → resp = .secret [1] 1 := by
  have hget : Node.step plain (Node.exec plain sampleDb sampleShared) sampleGet (sampleAmbient 9) =
      (some (.secret [1] 1), sampleRead) := Prod.ext (by decide) rfl
  have hput : (Node.step plain (Node.exec plain sampleRead sampleBetween)
      (.handle ⟨"o"⟩ (samplePeer 'a') (.put "g" "n" [3] 1)) (sampleAmbient 9)).1 =
        some (.version 2) := by decide
  obtain ⟨hnone, hread⟩ := put_replaces_value_read plain_lawful (by decide) init_sampleDb
    sampleShared sampleBetween hget hput (by decide) (by decide)
  exact ⟨hnone, fun resp => hread _ _ _ resp (by decide)⟩

/-! ## 削除が挟まる場合 -/

/-- もう一人の client が消して作り直す。 -/
def sampleRecreated : List (Node.Op × Ambient) :=
  sampleCalls [('b', .delete "g" "n" 1), ('b', .put "g" "n" [2] 0)]

/--
**消して作り直された secret は上書きされる。** 読んだのは `([1], 1)` だが、その後で別の client が
消して `[2]` を書いても version は 1 なので、1 を期待した Put は `[2]` を置き換える。
-/
theorem put_clobbers_recreated :
    Node.step plain (Node.exec plain sampleDb sampleShared) sampleGet (sampleAmbient 9) =
        (some (.secret [1] 1), sampleRead) ∧
      (Node.step plain (Node.exec plain sampleRead sampleRecreated)
        (.handle ⟨"o"⟩ (samplePeer 'a') (.put "g" "n" [3] 1)) (sampleAmbient 9)).1 =
          some (.version 2) ∧
      occurs plain (deleteOn "g" "n") sampleRead sampleRecreated = true ∧
      occurs plain (putOn "g" "n") sampleRead sampleRecreated = true ∧
      (Node.step plain (Node.exec plain sampleRead sampleRecreated) sampleGet (sampleAmbient 9)).1 =
        some (.secret [2] 1) :=
  ⟨Prod.ext (by decide) rfl, by decide, by decide, by decide, by decide⟩

end SecretBunker
