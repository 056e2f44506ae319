import SecretBunker.Replica.Engine
import SecretBunker.Store.Mirror

/-!
# 同期の手続きの証明の骨組み

手続きの正しさは、途中で知っている事実 `Fact` を一つずつ得て、反映か削除で使い切る形に述べる。
何を事実と見なすかは示したい性質ごとに違うので、`Discipline` がそれと、動作一つごとの規則を与える。
手続きについての議論はここで一度だけ行う。
-/

namespace SecretBunker

open Interleaving Relational Store SyncServer

/-- audit のほかの行が同じ database。 -/
def SameRows (db db' : Db) : Prop := ∃ log, db' = db.withAudit log

theorem SameRows.refl (db : Db) : SameRows db db := ⟨db.auditLog, rfl⟩

theorem SameRows.audit (db : Db) (prim : Primitives) (now : Int) (e op target outcome : String) :
    SameRows db (Store.audit db prim now e op target outcome) := ⟨_, rfl⟩

theorem SameRows.trans {a b c : Db} (h : SameRows a b) (h' : SameRows b c) : SameRows a c := by
  obtain ⟨_, rfl⟩ := h
  obtain ⟨log, rfl⟩ := h'
  exact ⟨log, rfl⟩

theorem SameRows.slotOf {db db' : Db} (h : SameRows db db') (g n : String) :
    slotOf db' g n = Store.slotOf db g n := by
  obtain ⟨log, rfl⟩ := h
  rfl

theorem SameRows.wrapOf {db db' : Db} (h : SameRows db db') (own g : String) (v : Nat) :
    wrapOf db' own g v = Store.wrapOf db own g v := by
  obtain ⟨log, rfl⟩ := h
  rfl

/-- 二つの store の行が同じ。時刻や event は問わない。 -/
structure Link.Same (l l' : Link Db) : Prop where
  upstream : SameRows l.upstream l'.upstream
  mirror : SameRows l.mirror l'.mirror

theorem Link.Same.refl (l : Link Db) : l.Same l := ⟨.refl _, .refl _⟩

theorem Link.Same.trans {a b c : Link Db} (h : a.Same b) (h' : b.Same c) : a.Same c :=
  ⟨h.upstream.trans h'.upstream, h.mirror.trans h'.mirror⟩

namespace Replica

/-- 反映の動作が成功すれば、group は mirror にある。 -/
theorem held_of_commit {Υ : Type} {prim : Primitives} {own : String} {l u : Link Υ}
    {state : GroupSyncState} {fetched : List FetchedSecret} {changes : List AppliedChange}
    (h : ((applyGroupSync l.mirror own state fetched).map fun applied => (applied.1, { l with
      mirror := Store.audit applied.2 prim l.now "(sync)" "sync-apply" state.name "ok" })) =
        some (changes, u)) :
    groupId u.mirror state.name ≠ none ∧ u.lastSynced = l.lastSynced := by
  obtain ⟨removed, db, gid, hspec, happlied, -⟩ := applyGroupSync_spec l.mirror own state fetched
  rw [hspec] at h
  cases h
  refine ⟨?_, rfl⟩
  show groupId db state.name ≠ none
  rw [happlied.located]
  exact Option.some_ne_none gid

/-- 手続きが途中で知っている事実。 -/
inductive Fact where
  /-- group は同期の範囲として扱ってよい。 -/
  | named (group : String)
  /-- 受け取った状態は写してよい。 -/
  | state (s : GroupSyncState)
  /-- group は落としてよい。 -/
  | gone (group : String)
  /-- 取り寄せが認められた。 -/
  | granted (group : String) (gid : Nat)
  /-- 取り寄せた行は写してよい。 -/
  | fetched (group : String) (secret : FetchedSecret)
  /-- 取り寄せた名前は上流に無かった。 -/
  | missing (group name : String)
  /-- group は揃っている。 -/
  | done (group : String)
  /-- 名前の列は manifest のすべてである。 -/
  | manifest (names : List String)

/-- `touched` の group の mirror を動かしても残る事実。 -/
def Fact.Survives (touched : Option String) : Fact → Prop
  | .named _ => True
  | .manifest _ => True
  | .state s => touched ≠ some s.name
  | .done group => touched ≠ some group
  | _ => False

/-- 事実の意味と、動作一つごとの規則。 -/
structure Discipline (own : String) (W : Type) extends Setting (Link Db) W where
  holds : Fact → W → Prop
  stable : ∀ {c w w'}, rely w w' → holds c w → holds c w'
  mirror_stable : ∀ {w w'}, rely w w' → SameRows (view w).mirror (view w').mirror
  /-- audit や event だけの動作は、環境の歩みと見分けが付かない。 -/
  quiet : ∀ {w s}, inv w → (view w).Same s → rely w (put w s) ∧ inv (put w s)
  named_of_state : ∀ {s w}, inv w → holds (.state s) w → holds (.named s.name) w
  read_group : ∀ {group w}, inv w → holds (.named group) w →
    match syncReadAuthorized (view w).upstream own group with
    | some gid => holds (.state (snapshotGroup (view w).upstream gid group own)) w
    | none => holds (.gone group) w
  authorize : ∀ {s w}, inv w → holds (.state s) w →
    match syncReadAuthorized (view w).upstream own s.name with
    | some gid => holds (.granted s.name gid) w
    | none => holds (.gone s.name) w
  read_row : ∀ {group gid w} (name : String), inv w → holds (.granted group gid) w →
    match secretDataCurrent (view w).upstream gid name with
    | some row => holds (.fetched group { row with name }) w
    | none => holds (.missing group name) w
  apply : ∀ {s w rows gid db db'}, inv w → holds (.state s) w →
    (∀ f ∈ rows, holds (.fetched s.name f) w) →
    (∀ n ∈ secretsNeedingFetch (view w).mirror s, (∀ f ∈ rows, f.name ≠ n) →
      holds (.missing s.name n) w) →
    (∀ f ∈ rows, f.name ∈ secretsNeedingFetch (view w).mirror s) →
    Applied own s (decryptable s rows) gid (view w).mirror db → SameRows db db' →
    inv (put w { view w with mirror := db' }) ∧
      holds (.done s.name) (put w { view w with mirror := db' }) ∧
      ∀ c, c.Survives (some s.name) → holds c w → holds c (put w { view w with mirror := db' })
  drop : ∀ {group w}, inv w → holds (.gone group) w →
    inv (put w { view w with mirror := (dropGroupLocal (view w).mirror group).2 }) ∧
      holds (.done group) (put w { view w with mirror := (dropGroupLocal (view w).mirror group).2 }) ∧
      ∀ c, c.Survives (some group) → holds c w →
        holds c (put w { view w with mirror := (dropGroupLocal (view w).mirror group).2 })
  gc : ∀ {w}, inv w →
    inv (put w { view w with mirror := gcUnreferencedIdentities (view w).mirror }) ∧
      ∀ c, c.Survives none → holds c w →
        holds c (put w { view w with mirror := gcUnreferencedIdentities (view w).mirror })
  stale : ∀ {names group w}, inv w → holds (.manifest names) w → group ∉ names →
    holds (.gone group) w
  absent : ∀ {names group w}, inv w → holds (.manifest names) w → group ∉ names →
    groupId (view w).mirror group = none → holds (.done group) w

namespace Discipline

variable {prim : Primitives} {own : String} {W : Type} (D : Discipline own W) {w : W}

/-- `Γ` の事実がすべて成り立つ。 -/
def All (Γ : Fact → Prop) (w : W) : Prop := ∀ c, Γ c → D.holds c w

variable {D} {Γ : Fact → Prop} {P : W → Prop}

theorem stableAt_holds (c : Fact) : D.StableAt (D.holds c) := fun _ _ => D.stable

theorem stableAt_all : D.StableAt (D.All Γ) := fun _ _ hr h c hc => D.stable hr (h c hc)

theorem stableAt_and {Q : W → Prop} (hP : D.StableAt P) (hQ : D.StableAt Q) :
    D.StableAt fun w => P w ∧ Q w := fun w w' hr h => ⟨hP w w' hr h.1, hQ w w' hr h.2⟩

/-! ## 静かな動作 -/

/-- 行を変えずに答えを読む動作。答えについては、読んだ時の世界で示せばよい。 -/
theorem safe_answer {α : Type} {f : Link Db → α × Link Db} {Q : α → W → Prop}
    (hf : ∀ l : Link Db, l.Same (f l).2) (hs : ∀ a, D.StableAt (Q a))
    (h : ∀ v, D.rely w v → D.inv v → Q (f (D.view v)).1 v) : D.Safe Q (Prog.atomic f) w := by
  refine Setting.Safe.atomic hs fun v hv hi => ?_
  obtain ⟨hr, hinv⟩ := D.quiet hi (hf (D.view v))
  exact ⟨hinv, hs _ _ _ hr (h v hv hi)⟩

theorem safe_quiet {f : Link Db → Link Db} (hf : ∀ l : Link Db, l.Same (f l))
    (hs : D.StableAt P) (h : P w) :
    D.Safe (fun _ => P) (Prog.modify f) w :=
  safe_answer hf (fun _ => hs) fun v hv _ => hs w v hv h

theorem safe_emit (event : ReplicaEvent) (hs : D.StableAt P) (h : P w) :
    D.Safe (fun _ => P) (emit event) w :=
  safe_quiet (fun _ => ⟨.refl _, .refl _⟩) hs h

theorem safe_touch (hs : D.StableAt P) (h : P w) : D.Safe (fun _ => P) touchLastSynced w :=
  safe_quiet (fun _ => ⟨.refl _, .refl _⟩) hs h

theorem safe_events (events : List ReplicaEvent) (hs : D.StableAt P) (hi : D.inv w) (h : P w) :
    D.Safe (fun _ => P) (events.forM emit) w :=
  Setting.Safe.forM (fun _ => hs) (fun _ _ _ _ h => safe_emit _ hs h) hi h

/-! ## 取り寄せ -/

/-- 取り寄せの答えから知れること。 -/
def Answered (D : Discipline own W) (group : String) : Option GroupSyncState → W → Prop
  | some s, w => s.name = group ∧ D.holds (.state s) w
  | none, w => D.holds (.gone group) w

theorem stableAt_answered (group : String) (r : Option GroupSyncState) :
    D.StableAt (D.Answered group r) := by
  intro w w' hr h
  cases r with
  | none => exact D.stable hr h
  | some s => exact ⟨h.1, D.stable hr h.2⟩

/-- 読んだ message が必ず答えに戻るなら、組み立ては失敗しない。 -/
theorem safe_collect {α β : Type} {p : Prog (Link Db) β} {collect : β → Option α}
    {Q : α → W → Prop} (hs : ∀ a, D.StableAt (Q a)) (hi : D.inv w)
    (h : D.Safe (fun messages w => ∃ a, collect messages = some a ∧ Q a w) p w) :
    D.Safe Q (p >>= fun messages => .orFail (collect messages)) w := by
  refine Setting.Safe.bind hi h ?_
  rintro messages v - ⟨a, hc, hQ⟩
  rw [hc]
  refine Setting.Safe.orFail hs (fun hnone => nomatch hnone) ?_
  intro a' ha'
  cases ha'
  exact hQ

variable {group : String} {s : GroupSyncState}

/-- `fetch_group` の往復。 -/
theorem safe_fetchGroupState (hs : D.StableAt P) (hi : D.inv w) (h : P w)
    (hn : D.holds (.named group) w) :
    D.Safe (fun r w => P w ∧ D.Answered group r w) (fetchGroupState (node prim own) group) w := by
  refine safe_collect (fun r => stableAt_and hs (stableAt_answered group r)) hi ?_
  refine safe_answer ?_ ?_ fun v hv hi => ?_
  · exact fun l => ⟨SameRows.audit l.upstream prim l.now _ _ _ _, .refl _⟩
  · rintro messages w w' hr ⟨r, hc, hP, ha⟩
    exact ⟨r, hc, hs _ _ hr hP, stableAt_answered group r _ _ hr ha⟩
  · have hread := D.read_group hi (D.stable hv hn)
    show ∃ r, Sync.collectGroup _
      (fetchGroup prim (D.view v).upstream (D.view v).now own group).1 = some r ∧ _
    unfold fetchGroup
    dsimp only
    cases hauth : syncReadAuthorized (D.view v).upstream own group with
    | none =>
      rw [hauth] at hread
      exact ⟨none, rfl, hs _ _ hv h, hread⟩
    | some gid =>
      rw [hauth] at hread
      exact ⟨some _, Sync.collectGroup_groupMessages _, hs _ _ hv h, rfl, hread⟩

/-- `names` を取り寄せた行から知れること。 -/
structure Rows (D : Discipline own W) (group : String) (names : List String)
    (rows : List FetchedSecret) (w : W) : Prop where
  fetched : ∀ f ∈ rows, D.holds (.fetched group f) w
  missing : ∀ n ∈ names, (∀ f ∈ rows, f.name ≠ n) → D.holds (.missing group n) w
  asked : ∀ f ∈ rows, f.name ∈ names

theorem stableAt_rows (group : String) (names : List String) (rows : List FetchedSecret) :
    D.StableAt (D.Rows group names rows) := fun _ _ hr h =>
  ⟨fun f hf => D.stable hr (h.fetched f hf), fun n hn hno => D.stable hr (h.missing n hn hno),
    h.asked⟩

theorem Rows.nil (group : String) : D.Rows group [] [] w :=
  ⟨fun _ hf => absurd hf List.not_mem_nil, fun _ hn => absurd hn List.not_mem_nil,
    fun _ hf => absurd hf List.not_mem_nil⟩

theorem Rows.append {names names' : List String} {rows rows' : List FetchedSecret}
    (h : D.Rows group names rows w) (h' : D.Rows group names' rows' w) :
    D.Rows group (names ++ names') (rows ++ rows') w where
  fetched := fun f hf => (List.mem_append.mp hf).elim (h.fetched f) (h'.fetched f)
  missing := by
    intro n hn hno
    rcases List.mem_append.mp hn with hn | hn
    · exact h.missing n hn fun f hf => hno f (List.mem_append_left _ hf)
    · exact h'.missing n hn fun f hf => hno f (List.mem_append_right _ hf)
  asked := fun f hf => List.mem_append.mpr
    ((List.mem_append.mp hf).imp (h.asked f) (h'.asked f))

/-- message の列は、`names` を取り寄せた行である。 -/
def Shipped (D : Discipline own W) (group : String) (names : List String)
    (messages : List SyncMessage) (w : W) : Prop :=
  ∃ rows : List FetchedSecret, messages = rows.map .secretData ∧ D.Rows group names rows w

theorem stableAt_shipped (group : String) (names : List String) (messages : List SyncMessage) :
    D.StableAt (D.Shipped group names messages) := fun _ _ hr ⟨rows, hm, hrows⟩ =>
  ⟨rows, hm, stableAt_rows group names rows _ _ hr hrows⟩

theorem shipped_secretMessage {name : String} {gid : Nat} (hi : D.inv w)
    (hg : D.holds (.granted group gid) w) :
    D.Shipped group [name] (secretMessage (D.view w).upstream gid name) w := by
  have hread := D.read_row name hi hg
  unfold secretMessage
  cases hrow : secretDataCurrent (D.view w).upstream gid name with
  | none =>
    rw [hrow] at hread
    refine ⟨[], rfl, fun f hf => absurd hf List.not_mem_nil, ?_,
      fun f hf => absurd hf List.not_mem_nil⟩
    intro n hn _
    rw [List.mem_singleton.mp hn]
    exact hread
  | some row =>
    rw [hrow] at hread
    refine ⟨[{ row with name }], rfl, ?_, ?_, ?_⟩
    · intro f hf
      rw [List.mem_singleton.mp hf]
      exact hread
    · intro n hn hno
      rw [List.mem_singleton.mp hn] at hno
      exact absurd rfl (hno _ List.mem_cons_self)
    · intro f hf
      rw [List.mem_singleton.mp hf]
      exact List.mem_cons_self

/-- 行を一つずつ読む。 -/
theorem safe_fetchRows {gid : Nat} (names : List String) (hs : D.StableAt P) (hi : D.inv w)
    (h : P w) (hg : D.holds (.granted group gid) w) :
    D.Safe (fun messages w => P w ∧ D.Shipped group names messages w) (fetchRows gid names) w := by
  induction names generalizing w P with
  | nil =>
    exact Setting.Safe.ret (stableAt_and hs (stableAt_shipped group [] [])) ⟨h, [], rfl, .nil group⟩
  | cons name names ih =>
    -- 一つ読んだ答えを持ったまま、残りを読む
    refine Setting.Safe.bind hi (show D.Safe (fun row w => (P w ∧ D.Shipped group [name] row w) ∧
      D.holds (.granted group gid) w) _ w from ?_) ?_
    · refine safe_answer (fun l => ⟨.refl _, .refl _⟩) ?_ fun v hv hi => ?_
      · exact fun row => stableAt_and (stableAt_and hs (stableAt_shipped group [name] row))
          (stableAt_holds _)
      · exact ⟨⟨hs _ _ hv h, shipped_secretMessage hi (D.stable hv hg)⟩, D.stable hv hg⟩
    · rintro row v hiv ⟨hfirst, hg⟩
      refine Setting.Safe.bind hiv
        (ih (stableAt_and hs (stableAt_shipped group [name] row)) hiv hfirst hg) ?_
      rintro messages u hiu ⟨⟨hP, rows, rfl, hrows⟩, rows', rfl, hrows'⟩
      refine Setting.Safe.ret (stableAt_and hs (stableAt_shipped group _ _))
        ⟨hP, rows ++ rows', ?_, hrows.append hrows'⟩
      rw [List.map_append]

/-- 取り寄せの答えから知れること。 -/
def Delivered (D : Discipline own W) (group : String) (names : List String) :
    Option (List FetchedSecret) → W → Prop
  | some rows, w => D.Rows group names rows w
  | none, w => D.holds (.gone group) w

theorem stableAt_delivered (group : String) (names : List String)
    (r : Option (List FetchedSecret)) : D.StableAt (D.Delivered group names r) := by
  cases r with
  | none => exact stableAt_holds _
  | some rows => exact stableAt_rows group names rows

/-- `fetch_secrets` の往復。 -/
theorem safe_fetchSecrets (names : List String) (hs : D.StableAt P) (hi : D.inv w) (h : P w)
    (hst : D.holds (.state s) w) :
    D.Safe (fun r w => P w ∧ D.Delivered s.name names r w)
      (fetchSecrets (node prim own) s.name names) w := by
  refine safe_collect (fun r => stableAt_and hs (stableAt_delivered s.name names r)) hi ?_
  have hpost : ∀ messages, D.StableAt fun w => ∃ r,
      Sync.collectSecrets [] messages = some r ∧ P w ∧ D.Delivered s.name names r w :=
    fun _ w w' hr ⟨r, hc, hP, hd⟩ =>
      ⟨r, hc, hs _ _ hr hP, stableAt_delivered s.name names r _ _ hr hd⟩
  refine Setting.Safe.bind hi (show D.Safe (fun r w => P w ∧ match r with
    | some gid => D.holds (.granted s.name gid) w
    | none => D.holds (.gone s.name) w) _ w from ?_) ?_
  · refine safe_answer ?_ ?_ fun v hv hi => ⟨hs _ _ hv h, D.authorize hi (D.stable hv hst)⟩
    · exact fun l => ⟨SameRows.audit l.upstream prim l.now _ _ _ _, .refl _⟩
    · intro r
      refine stableAt_and hs ?_
      cases r with
      | none => exact stableAt_holds _
      | some gid => exact stableAt_holds _
  · rintro r v hiv ⟨hP, hauth⟩
    cases r with
    | none => exact Setting.Safe.ret (hpost _) ⟨none, rfl, hP, hauth⟩
    | some gid =>
      refine Setting.Safe.bind hiv (safe_fetchRows names hs hiv hP hauth) ?_
      rintro messages u hiu ⟨hP, rows, rfl, hrows⟩
      exact Setting.Safe.ret (hpost _) ⟨some rows, Sync.collectSecrets_data [] rows, hP, hrows⟩

theorem safe_fetchNeeded (names : List String) (hs : D.StableAt P) (hi : D.inv w) (h : P w)
    (hst : D.holds (.state s) w) :
    D.Safe (fun r w => P w ∧ D.Delivered s.name names r w)
      (fetchNeeded (node prim own) s.name names) w := by
  unfold fetchNeeded
  split
  · next hnil =>
    rw [List.isEmpty_iff.mp hnil]
    exact Setting.Safe.ret (stableAt_and hs (stableAt_delivered s.name [] (some [])))
      ⟨h, .nil s.name⟩
  · exact safe_fetchSecrets names hs hi h hst

/-! ## 反映 -/

/-- 反映は失敗せず、group は揃い、ほかの事実は残る。 -/
theorem safe_commitState {rows : List FetchedSecret} (hΓ : ∀ c, Γ c → c.Survives (some s.name))
    (h : D.All Γ w) (hst : D.holds (.state s) w) {names : List String}
    (hn : secretsNeedingFetch (D.view w).mirror s = names) (hrows : D.Rows s.name names rows w) :
    D.Safe (fun _ w => D.All Γ w ∧ D.holds (.done s.name) w)
      (commitState prim own s (decryptable s rows)) w := by
  refine Setting.Safe.attempt (fun _ => stableAt_and stableAt_all (stableAt_holds _)) ?_ ?_
  · intro v hv hi hnone
    obtain ⟨removed, db, gid, happly, -⟩ :=
      applyGroupSync_spec (D.view v).mirror own s (decryptable s rows)
    rw [happly] at hnone
    cases hnone
  · intro v changes l hv hi hsome
    obtain ⟨removed, db, gid, happly, happlied, -⟩ :=
      applyGroupSync_spec (D.view v).mirror own s (decryptable s rows)
    rw [happly] at hsome
    cases hsome
    -- mirror は読んだ時のままなので、求めた名前の列も変わっていない
    have hneeded : secretsNeedingFetch (D.view v).mirror s = names := by
      obtain ⟨log, hlog⟩ := D.mirror_stable hv
      rw [hlog]
      exact hn
    have hrows := stableAt_rows s.name names rows _ _ hv hrows
    obtain ⟨hinv, hdone, hkeep⟩ := D.apply hi (D.stable hv hst) hrows.fetched
      (by rw [hneeded]; exact hrows.missing) (by rw [hneeded]; exact hrows.asked) happlied
      (SameRows.audit db prim (D.view v).now "(sync)" "sync-apply" s.name "ok")
    exact ⟨hinv, fun c hc => hkeep c (hΓ c hc) (D.stable hv (h c hc)), hdone⟩

/-- 反映の結果から知れること。 -/
def Concluded (D : Discipline own W) (group : String) : ApplyOutcome → W → Prop
  | .denied, w => D.holds (.gone group) w
  | .applied _, w => D.holds (.done group) w

theorem stableAt_concluded (group : String) (o : ApplyOutcome) :
    D.StableAt (D.Concluded group o) := by
  cases o with
  | denied => exact stableAt_holds _
  | applied _ => exact stableAt_holds _

/-- 受け取った状態を適用する。 -/
theorem safe_applyGroupState (hΓ : ∀ c, Γ c → c.Survives (some s.name)) (hi : D.inv w)
    (h : D.All Γ w) (hst : D.holds (.state s) w) :
    D.Safe (fun o w => D.All Γ w ∧ D.Concluded s.name o w)
      (applyGroupState (node prim own) prim own s) w := by
  have hpost : ∀ o, D.StableAt fun w => D.All Γ w ∧ D.Concluded s.name o w :=
    fun o => stableAt_and stableAt_all (stableAt_concluded s.name o)
  have hbase : ∀ names, D.StableAt fun w => (D.All Γ w ∧ D.holds (.state s) w) ∧
      secretsNeedingFetch (D.view w).mirror s = names := by
    refine fun names => stableAt_and (stableAt_and stableAt_all (stableAt_holds _)) ?_
    intro w w' hr hn
    obtain ⟨log, hlog⟩ := D.mirror_stable hr
    rw [hlog]
    exact hn
  refine Setting.Safe.bind hi (show D.Safe (fun needed w => (D.All Γ w ∧ D.holds (.state s) w) ∧
    secretsNeedingFetch (D.view w).mirror s = needed.1) _ w from ?_) ?_
  · exact safe_answer (fun l => ⟨.refl _, .refl _⟩) (fun needed => hbase needed.1)
      fun v hv _ => ⟨⟨stableAt_all _ _ hv h, D.stable hv hst⟩, rfl⟩
  · rintro needed v hiv hv
    refine Setting.Safe.bind hiv (safe_fetchNeeded needed.1 (hbase needed.1) hiv hv hv.1.2) ?_
    rintro r u hiu ⟨⟨⟨hall, hst⟩, hn⟩, hdel⟩
    cases r with
    | none => exact Setting.Safe.ret (hpost .denied) ⟨hall, hdel⟩
    | some rows =>
      refine Setting.Safe.bind hiu (safe_commitState hΓ hall hst hn hdel) ?_
      rintro changes x hix hx
      have hs : D.StableAt fun w => D.All Γ w ∧ D.holds (.done s.name) w :=
        stableAt_and stableAt_all (stableAt_holds _)
      refine Setting.Safe.bind hix (safe_events _ hs hix hx) fun _ y hiy hy => ?_
      refine Setting.Safe.bind hiy (safe_touch hs hy) fun _ z _ hz => ?_
      exact Setting.Safe.ret (hpost (.applied _)) hz

/-! ## 削除 -/

theorem safe_dropGroup (hΓ : ∀ c, Γ c → c.Survives (some group)) (hi : D.inv w) (h : D.All Γ w)
    (hgone : D.holds (.gone group) w) :
    D.Safe (fun _ w => D.All Γ w ∧ D.holds (.done group) w) (dropGroup group) w := by
  have hs : D.StableAt fun w => D.All Γ w ∧ D.holds (.done group) w :=
    stableAt_and stableAt_all (stableAt_holds _)
  refine Setting.Safe.bind hi (show D.Safe (fun _ w => D.All Γ w ∧ D.holds (.done group) w) _ w
    from Setting.Safe.atomic (fun _ => hs) fun v hv hi => ?_) ?_
  · obtain ⟨hinv, hdone, hkeep⟩ := D.drop hi (D.stable hv hgone)
    exact ⟨hinv, fun c hc => hkeep c (hΓ c hc) (D.stable hv (h c hc)), hdone⟩
  · rintro dropped v hiv hv
    cases dropped with
    | false => exact Setting.Safe.ret hs hv
    | true => exact safe_emit _ hs hv

theorem safe_gc (hΓ : ∀ c, Γ c → c.Survives none) (h : D.All Γ w) :
    D.Safe (fun _ w => D.All Γ w) gcIdentities w := by
  refine Setting.Safe.atomic (fun _ => stableAt_all) fun v hv hi => ?_
  obtain ⟨hinv, hkeep⟩ := D.gc hi
  exact ⟨hinv, fun c hc => hkeep c (hΓ c hc) (D.stable hv (h c hc))⟩

/-- 事実を一つ足す。 -/
def adding (Γ : Fact → Prop) (d : Fact) : Fact → Prop := fun c => Γ c ∨ c = d

theorem all_adding {d : Fact} : D.All (adding Γ d) w ↔ D.All Γ w ∧ D.holds d w := by
  constructor
  · exact fun h => ⟨fun c hc => h c (Or.inl hc), h d (Or.inr rfl)⟩
  · rintro ⟨h, hd⟩ c (hc | rfl)
    · exact h c hc
    · exact hd

theorem survives_none {c : Fact} (h : c.Survives (some group)) : c.Survives none := by
  cases c with
  | named _ => trivial
  | manifest _ => trivial
  | state _ => exact fun hc => nomatch hc
  | done _ => exact fun hc => nomatch hc
  | gone _ => exact h
  | granted _ _ => exact h
  | fetched _ _ => exact h
  | missing _ _ => exact h

theorem safe_dropGroupAndGc (hΓ : ∀ c, Γ c → c.Survives (some group)) (hi : D.inv w)
    (h : D.All Γ w) (hgone : D.holds (.gone group) w) :
    D.Safe (fun _ w => D.All Γ w ∧ D.holds (.done group) w) (dropGroupAndGc group) w := by
  refine Setting.Safe.bind hi (safe_dropGroup hΓ hi h hgone) fun _ v _ hv => ?_
  refine (safe_gc ?_ (all_adding.mpr hv)).mono fun _ _ _ => all_adding.mp
  rintro c (hc | rfl)
  · exact survives_none (hΓ c hc)
  · exact fun hc => nomatch hc

/-! ## group 一つの同期 -/

/-- **状態を受け取った group は、取り寄せ直しや拒否を挟んでも揃う。** -/
theorem safe_syncOneGroup (hΓ : ∀ c, Γ c → c.Survives (some s.name)) (hi : D.inv w)
    (h : D.All Γ w) (hst : D.holds (.state s) w) :
    D.Safe (fun _ w => D.All Γ w ∧ D.holds (.done s.name) w)
      (syncOneGroup (node prim own) prim own s) w := by
  have hs : D.StableAt fun w => D.All Γ w ∧ D.holds (.done s.name) w :=
    stableAt_and stableAt_all (stableAt_holds _)
  -- 名前は反映の後の取り寄せ直しでも要る
  have hΓ' : ∀ c, adding Γ (.named s.name) c → c.Survives (some s.name) := by
    rintro c (hc | rfl)
    · exact hΓ c hc
    · trivial
  refine Setting.Safe.bind hi (safe_applyGroupState hΓ' hi
    (all_adding.mpr ⟨h, D.named_of_state hi hst⟩) hst) ?_
  rintro o v hiv ⟨hall, ho⟩
  obtain ⟨hall, hnamed⟩ := all_adding.mp hall
  cases o with
  | denied => exact safe_dropGroupAndGc hΓ hiv hall ho
  | applied skipped =>
    cases skipped with
    | false => exact Setting.Safe.ret hs ⟨hall, ho⟩
    | true =>
      refine Setting.Safe.bind hiv (safe_fetchGroupState stableAt_all hiv hall hnamed) ?_
      rintro r u hiu ⟨hall, hr⟩
      cases r with
      | none => exact safe_dropGroupAndGc hΓ hiu hall hr
      | some fresh =>
        obtain ⟨hname, hfresh⟩ := hr
        rw [← hname] at hΓ
        refine Setting.Safe.bind hiu (safe_applyGroupState hΓ hiu hall hfresh) ?_
        rw [hname] at hΓ ⊢
        rintro o x hix ⟨hall, ho⟩
        cases o with
        | denied => exact safe_dropGroupAndGc hΓ hix hall ho
        | applied _ => exact Setting.Safe.ret hs ⟨hall, ho⟩

/-- **`Changed` を受けた group は揃う。** -/
theorem safe_syncGroupViaFetch (hΓ : ∀ c, Γ c → c.Survives (some group)) (hi : D.inv w)
    (h : D.All Γ w) (hn : D.holds (.named group) w) :
    D.Safe (fun _ w => D.All Γ w ∧ D.holds (.done group) w)
      (syncGroupViaFetch (node prim own) prim own group) w := by
  refine Setting.Safe.bind hi (safe_fetchGroupState stableAt_all hi h hn) ?_
  rintro r v hiv ⟨hall, hr⟩
  cases r with
  | none => exact safe_dropGroupAndGc hΓ hiv hall hr
  | some s =>
    obtain ⟨rfl, hst⟩ := hr
    exact safe_syncOneGroup hΓ hiv hall hst

/-! ## manifest の全体 -/

/-- 状態の列を順に揃える。揃えた group は、後の反映に乱されない。 -/
theorem safe_syncAll {stash : List GroupSyncState} (hnd : (stash.map (·.name)).Nodup)
    (hΓ : ∀ c, Γ c → ∀ s ∈ stash, c.Survives (some s.name)) (hi : D.inv w) (h : D.All Γ w)
    (hst : ∀ s ∈ stash, D.holds (.state s) w) :
    D.Safe (fun _ w => D.All Γ w ∧ ∀ s ∈ stash, D.holds (.done s.name) w)
      (stash.forM (syncOneGroup (node prim own) prim own)) w := by
  induction stash generalizing w Γ with
  | nil =>
    have hnone : ∀ v, ∀ s ∈ ([] : List GroupSyncState), D.holds (.done s.name) v :=
      fun _ _ hs => absurd hs List.not_mem_nil
    exact Setting.Safe.ret (stableAt_and stableAt_all fun _ _ _ _ => hnone _) ⟨h, hnone w⟩
  | cons s rest ih =>
    rw [List.map_cons, List.nodup_cons] at hnd
    have hne : ∀ t ∈ rest, t.name ≠ s.name := fun t ht he => hnd.1 (he ▸ List.mem_map_of_mem ht)
    -- 先頭を揃える間、残りの状態は使えるままである
    refine Setting.Safe.bind hi (safe_syncOneGroup (s := s)
      (Γ := fun c => Γ c ∨ ∃ t ∈ rest, c = .state t) ?_ hi ?_ (hst s List.mem_cons_self)) ?_
    · rintro c (hc | ⟨t, ht, rfl⟩)
      · exact hΓ c hc s List.mem_cons_self
      · exact fun he => hne t ht (Option.some.inj he).symm
    · rintro c (hc | ⟨t, ht, rfl⟩)
      · exact h c hc
      · exact hst t (List.mem_cons_of_mem _ ht)
    · rintro - v hiv ⟨hall, hdone⟩
      refine (ih (Γ := adding Γ (.done s.name)) hnd.2 ?_ hiv
        (all_adding.mpr ⟨fun c hc => hall c (Or.inl hc), hdone⟩)
        fun t ht => hall _ (Or.inr ⟨t, ht, rfl⟩)).mono ?_
      · rintro c (hc | rfl) t ht
        · exact hΓ c hc t (List.mem_cons_of_mem _ ht)
        · exact fun he => hne t ht (Option.some.inj he)
      · rintro - u - ⟨hall, hrest⟩
        obtain ⟨hall, hdone⟩ := all_adding.mp hall
        refine ⟨hall, fun t ht => ?_⟩
        rcases List.mem_cons.mp ht with rfl | ht
        · exact hdone
        · exact hrest t ht

/-- manifest に無い group を順に落とす。揃っている group は、落とす間も後も揃っている。 -/
theorem safe_dropAll {names stale : List String} (hstale : ∀ g ∈ stale, g ∉ names)
    (hΓ : ∀ c, Γ c → ∃ g, c = .done g) (hi : D.inv w) (h : D.All Γ w)
    (hm : D.holds (.manifest names) w) :
    D.Safe (fun _ w => D.All Γ w ∧ ∀ g ∈ stale, D.holds (.done g) w) (stale.forM dropGroup) w := by
  induction stale generalizing w Γ with
  | nil =>
    have hnone : ∀ v, ∀ g ∈ ([] : List String), D.holds (.done g) v :=
      fun _ _ hg => absurd hg List.not_mem_nil
    exact Setting.Safe.ret (stableAt_and stableAt_all fun _ _ _ _ => hnone _) ⟨h, hnone w⟩
  | cons g rest ih =>
    refine Setting.Safe.bind hi (safe_dropGroup
      (Γ := fun c => (Γ c ∨ c = .manifest names) ∧ c.Survives (some g)) (fun c hc => hc.2) hi ?_
      (D.stale hi hm (hstale g List.mem_cons_self))) ?_
    · rintro c ⟨hc | rfl, -⟩
      · exact h c hc
      · exact hm
    · rintro - v hiv ⟨hall, hdone⟩
      have hkept : D.All Γ v := by
        intro c hc
        obtain ⟨k, rfl⟩ := hΓ c hc
        by_cases hk : g = k
        · rw [← hk]
          exact hdone
        · exact hall _ ⟨Or.inl hc, fun he => hk (Option.some.inj he)⟩
      refine (ih (Γ := adding Γ (.done g)) (fun k hk => hstale k (List.mem_cons_of_mem _ hk)) ?_ hiv
        (all_adding.mpr ⟨hkept, hdone⟩) (hall _ ⟨Or.inr rfl, trivial⟩)).mono ?_
      · rintro c (hc | rfl)
        · exact hΓ c hc
        · exact ⟨g, rfl⟩
      · rintro - u - ⟨hall, hrest⟩
        obtain ⟨hall, hdone⟩ := all_adding.mp hall
        refine ⟨hall, fun k hk => ?_⟩
        rcases List.mem_cons.mp hk with rfl | hk
        · exact hdone
        · exact hrest k hk

theorem mem_replicaGroupNames {db : Db} {name : String} :
    name ∈ replicaGroupNames db ↔ groupId db name ≠ none := by
  unfold replicaGroupNames
  rw [mem_sortOn, List.mem_map, ne_eq, groupId_eq_none]
  simp only [not_forall, not_not, exists_prop]
  rfl

/-- **manifest を写し終えると、どの group も揃っている。** -/
theorem safe_fullResync {stash : List GroupSyncState} (hnd : (stash.map (·.name)).Nodup)
    (hi : D.inv w) (hm : D.holds (.manifest (stash.map (·.name))) w)
    (hst : ∀ s ∈ stash, D.holds (.state s) w) :
    D.Safe (fun _ w => ∀ g, D.holds (.done g) w) (fullResync (node prim own) prim own stash) w := by
  have hall : ∀ {v}, D.All (fun c => ∃ g, c = .done g) v ↔ ∀ g, D.holds (.done g) v :=
    ⟨fun h g => h _ ⟨g, rfl⟩, fun h c ⟨g, hc⟩ => hc ▸ h g⟩
  have hs : D.StableAt fun w => ∀ g, D.holds (.done g) w := fun _ _ hr h g => D.stable hr (h g)
  refine Setting.Safe.bind hi (safe_syncAll (Γ := fun c => c = .manifest (stash.map (·.name))) hnd
    (by rintro c rfl s hs; trivial) hi (by rintro c rfl; exact hm) hst) ?_
  rintro - v hiv ⟨hmv, hdone⟩
  -- 手元に無い group は、manifest に無ければもう揃っている
  refine Setting.Safe.bind hiv (show D.Safe (fun stale w =>
    D.All (fun c => ∃ g, c = .done g ∧ g ∉ stale) w ∧ D.holds (.manifest (stash.map (·.name))) w ∧
      ∀ g ∈ stale, g ∉ stash.map (·.name)) _ v from safe_answer (fun l => ⟨.refl _, .refl _⟩) ?_ ?_) ?_
  · intro stale
    exact stableAt_and stableAt_all (stableAt_and (stableAt_holds _) fun _ _ _ h => h)
  · intro u hu hiu
    have hmem : ∀ g, g ∈ (replicaGroupNames (D.view u).mirror).filter
        (fun name => !(stash.any fun s => s.name == name)) ↔
          groupId (D.view u).mirror g ≠ none ∧ g ∉ stash.map (·.name) := by
      intro g
      rw [List.mem_filter, mem_replicaGroupNames]
      simp
    have hmu := D.stable hu (hmv _ rfl)
    refine ⟨?_, hmu, fun g hg => ((hmem g).mp hg).2⟩
    rintro c ⟨g, rfl, hg⟩
    by_cases hin : g ∈ stash.map (·.name)
    · obtain ⟨s, hs, rfl⟩ := List.mem_map.mp hin
      exact D.stable hu (hdone s hs)
    · refine D.absent hiu hmu hin (not_not.mp fun hheld => hg ((hmem g).mpr ⟨hheld, hin⟩))
  · rintro stale u hiu ⟨hkept, hmu, hstale⟩
    refine Setting.Safe.bind hiu (safe_dropAll hstale (fun c ⟨g, hc, _⟩ => ⟨g, hc⟩) hiu hkept hmu) ?_
    rintro - x hix ⟨hkept, hdropped⟩
    have hx : ∀ g, D.holds (.done g) x := by
      intro g
      by_cases hg : g ∈ stale
      · exact hdropped g hg
      · exact hkept _ ⟨g, rfl, hg⟩
    refine Setting.Safe.bind hix (safe_gc ?_ (hall.mpr hx)) fun _ y _ hy => ?_
    · rintro c ⟨g, rfl⟩
      exact fun hc => nomatch hc
    · exact safe_touch hs (hall.mp hy)

end Discipline

end Replica

end SecretBunker
