import Mathlib.Logic.Function.Basic
import SecretBunker.Lib.Ledger
import SecretBunker.Replica.Outline
import SecretBunker.Replica.Session

/-!
# event の流れ

購読者は event を順に畳み込むだけで mirror の見え方を追える。上流が何を返してきても、
反映と削除の変化はすべて event になり、event が流れるときには mirror はもう書き換わっている。

* `fold_applied`、`named_applied`：反映一つの変化と event。
* `fold_dropped`、`named_dropped`：group の削除と event。
* `runs_task`：task の手続きは、書き込みのたびにその event を流す。
* `events_tell_the_mirror`：task のどの実行でも。
* `announcing_moves`：一歩ごとに、書き込みの event は流れるか流し残しにある。
-/

namespace SecretBunker

open Interleaving Relational Store

namespace Replica

/-! ## 見え方 -/

def groups (mirror : Db) : List String := replicaGroupNames mirror

/-- group ごとの、secret の名前と version。 -/
abbrev View := String → Option (String → Option Nat)

/-- `groups()` と `list()` の答える見え方。 -/
def view (mirror : Db) : View := fun group =>
  if group ∈ groups mirror then
    some fun name => match list mirror group with
      | .ok entries => entries.lookup name
      | .error _ => none
  else none

/-- event 一つの畳み込み。 -/
def foldEvent (v : View) : ReplicaEvent → View
  | .groupAdded group => Function.update v group (some fun _ => none)
  | .secretChanged group name version =>
    Function.update v group ((v group).map fun m => Function.update m name (some version))
  | .secretDeleted group name =>
    Function.update v group ((v group).map fun m => Function.update m name none)
  | .groupRemoved group => Function.update v group none
  | .connected => v
  | .disconnected => v

variable {mirror : Db} {group : String}

theorem mem_groups : group ∈ groups mirror ↔ groupId mirror group ≠ none := by
  unfold groups replicaGroupNames
  rw [mem_sortOn, List.mem_map, ne_eq, groupId_eq_none]
  push Not
  exact Iff.rfl

theorem lookup_listSecrets (mirror : Db) (gid : Nat) (name : String) :
    (listSecrets mirror gid).lookup name = secretVersion mirror gid name := by
  refine Option.ext fun v => ?_
  rw [← mem_listSecrets (e := (name, v)), List.lookup_eq_some_iff]
  constructor
  · rintro ⟨l₁, l₂, he, -⟩
    simp [he]
  · intro hm
    obtain ⟨l₁, l₂, he⟩ := List.append_of_mem hm
    refine ⟨l₁, l₂, he, fun p hp => ?_⟩
    have hnd := listSecrets_nodup mirror gid
    rw [he, List.map_append, List.nodup_append] at hnd
    rw [bne_iff_ne]
    exact (hnd.2.2 p.1 (List.mem_map_of_mem hp) name (by simp)).symm

theorem view_eq (mirror : Db) (group : String) :
    view mirror group = (groupId mirror group).map fun _ name => (slotOf mirror group name).1 := by
  unfold view
  cases hg : groupId mirror group with
  | none =>
    rw [if_neg (by rw [mem_groups, hg]; simp)]
    rfl
  | some gid =>
    rw [if_pos (by rw [mem_groups, hg]; simp)]
    refine congrArg some (funext fun name => ?_)
    dsimp only [list]
    rw [hg, slotOf_eq hg]
    exact lookup_listSecrets mirror gid name

/-- group の中身。見え方に、暗号文の行を加えたもの。 -/
def holdings (mirror : Db) (group : String) :
    Option (String → Option Nat × Option SecretDataRow) :=
  (groupId mirror group).map fun _ => slotOf mirror group

/-! ## 反映 -/

/-- 変化一つを、group の中身に当てる。 -/
def foldChange (m : String → Option Nat) : AppliedChange → String → Option Nat
  | .secretChanged name version => Function.update m name (some version)
  | .secretDeleted name => Function.update m name none

theorem fold_changes {v : View} {m : String → Option Nat} (h : v group = some m)
    (changes : List AppliedChange) :
    (changes.map (changeEvent group)).foldl foldEvent v =
      Function.update v group (some (changes.foldl foldChange m)) := by
  induction changes generalizing v m with
  | nil => exact (Function.update_eq_self_iff.mpr h.symm).symm
  | cons c rest ih =>
    have hc : foldEvent v (changeEvent group c) = Function.update v group (some (foldChange m c)) := by
      cases c with
      | secretChanged => simp [foldEvent, changeEvent, foldChange, h]
      | secretDeleted => simp [foldEvent, changeEvent, foldChange, h]
    rw [List.map_cons, List.foldl_cons, hc, ih (Function.update_self ..), Function.update_idem]
    rfl

/-- 取り寄せた行の event は、重なれば後のものが残る。 -/
theorem fold_fetched (fetched : List FetchedSecret) {m : String → Option Nat} {n : String}
    (old : Option Nat × Option SecretDataRow) (h : old.1 = m n) :
    (fetched.map fun s => AppliedChange.secretChanged s.name s.version).foldl foldChange m n =
      (fetchedSlot fetched n old).1 := by
  induction fetched generalizing m old with
  | nil => exact h.symm
  | cons s rest ih =>
    rw [List.map_cons, List.foldl_cons]
    refine (ih (foldChange m (.secretChanged s.name s.version) n, none) rfl).trans ?_
    unfold fetchedSlot
    rw [latest]
    cases latest rest n with
    | some f => rfl
    | none =>
      by_cases hn : s.name = n
      · simp [hn, foldChange]
      · simp [hn, foldChange, Function.update_of_ne (Ne.symm hn), h]

theorem fold_removed (removed : List String) (m : String → Option Nat) (n : String) :
    (removed.map AppliedChange.secretDeleted).foldl foldChange m n =
      if n ∈ removed then none else m n := by
  induction removed generalizing m with
  | nil => simp
  | cons name rest ih =>
    rw [List.map_cons, List.foldl_cons, ih]
    by_cases hn : n = name <;> by_cases hr : n ∈ rest <;> simp [foldChange, hn, hr]

/-- **反映の event を畳むと、反映の後の見え方になる。**
一覧に無い名前を取り寄せていれば、入れた event と消した event がともに流れる。 -/
theorem fold_applied {own : String} {db : Db} {state : GroupSyncState}
    {fetched : List FetchedSecret} {removed : List String} {gid : Nat}
    (happlied : Applied own state fetched gid mirror db)
    (hremoved : Removed state fetched gid mirror removed) :
    (announcements state.name (groupId mirror state.name).isNone
      (fetched.map (fun s => .secretChanged s.name s.version) ++ removed.map .secretDeleted)).foldl
        foldEvent (view mirror) = view db := by
  -- `GroupAdded` まで畳むと、どちらの場合も group は手元の secret だけを持つ
  have hbase : (if (groupId mirror state.name).isNone then [ReplicaEvent.groupAdded state.name]
      else []).foldl foldEvent (view mirror) = Function.update (view mirror) state.name
        (some fun n => (slotOf mirror state.name n).1) := by
    cases hg : groupId mirror state.name with
    | none => simp [foldEvent, slotOf_absent hg]
    | some g =>
      refine (Function.update_eq_self_iff.mpr ?_).symm
      show _ = view mirror state.name
      rw [view_eq, hg]
      rfl
  unfold announcements
  rw [List.foldl_append, hbase, fold_changes (Function.update_self ..), Function.update_idem]
  funext group
  by_cases hname : group = state.name
  · rw [hname, Function.update_self, view_eq, happlied.located]
    refine congrArg some (funext fun n => ?_)
    show _ = (slotOf db state.name n).1
    rw [List.foldl_append, fold_removed, fold_fetched fetched (slotOf mirror state.name n) rfl,
      happlied.slotOf, if_pos rfl, ← happlied.slot_before]
    by_cases hlist : ∀ e ∈ state.secrets, e.name ≠ n
    · rw [if_pos hlist]
      split
      · rfl
      · next hno => exact not_not.mp fun hne => hno ((hremoved n).mpr ⟨hne, hlist⟩)
    · rw [if_neg hlist, if_neg fun hn => hlist ((hremoved n).mp hn).2]
  · rw [Function.update_of_ne hname, view_eq, view_eq, happlied.others group hname]
    simp only [happlied.slotOf, if_neg hname]

/-- 反映で中身の変わる group は、event に名前が出る。 -/
theorem named_applied {own : String} {db : Db} {state : GroupSyncState}
    {fetched : List FetchedSecret} {removed : List String} {gid : Nat}
    (happlied : Applied own state fetched gid mirror db)
    (hremoved : Removed state fetched gid mirror removed)
    (h : holdings db group ≠ holdings mirror group) :
    ∃ e ∈ announcements state.name (groupId mirror state.name).isNone
      (fetched.map (fun s => .secretChanged s.name s.version) ++ removed.map .secretDeleted),
      e.group = some group := by
  by_cases hname : group = state.name
  · subst hname
    unfold announcements
    cases hg : groupId mirror state.name with
    | none => exact ⟨_, List.mem_append_left _ (List.mem_singleton_self _), rfl⟩
    | some g =>
      -- 前からある group では、変わった secret が取り寄せた行か消した行にある
      have hslot : ∃ n, slotOf db state.name n ≠ slotOf mirror state.name n := by
        refine not_forall.mp fun hall => h ?_
        unfold holdings
        rw [hg, happlied.located]
        exact congrArg some (funext hall)
      obtain ⟨n, hn⟩ := hslot
      rw [happlied.slotOf, if_pos rfl, ← happlied.slot_before] at hn
      cases hf : latest fetched n with
      | some f =>
        obtain ⟨hmem, -⟩ := latest_eq_some hf
        refine ⟨_, List.mem_append_right _ (List.mem_map_of_mem
          (List.mem_append_left _ (List.mem_map_of_mem hmem))), rfl⟩
      | none =>
        have hkeep : fetchedSlot fetched n (slot mirror gid n) = slot mirror gid n := by
          unfold fetchedSlot
          rw [hf]
        rw [hkeep] at hn
        split at hn
        · next hlist =>
          refine ⟨.secretDeleted state.name n, List.mem_append_right _ (List.mem_map.mpr
            ⟨.secretDeleted n, List.mem_append_right _ (List.mem_map_of_mem ?_), rfl⟩), rfl⟩
          refine (hremoved n).mpr ⟨fun hnone => hn ?_, hlist⟩
          rw [hkeep] at hnone
          exact (slot_of_absent (Option.map_eq_none_iff.mp hnone)).symm
        · exact absurd rfl hn
  · refine absurd ?_ h
    unfold holdings
    rw [happlied.others group hname]
    refine congrArg (Option.map · _) (funext fun _ => funext fun n => ?_)
    rw [happlied.slotOf, if_neg hname]

/-- **消した group の event を畳むと、消した後の見え方になる。** -/
theorem fold_dropped (mirror : Db) (name : String) :
    (if (dropGroupLocal mirror name).1 then [ReplicaEvent.groupRemoved name] else []).foldl
      foldEvent (view mirror) = view (dropGroupLocal mirror name).2 := by
  have hdropped := dropGroupLocal_spec mirror name
  have hview : view (dropGroupLocal mirror name).2 = Function.update (view mirror) name none := by
    funext group
    rw [view_eq, hdropped.groups]
    by_cases hname : group = name
    · rw [if_pos hname, hname, Function.update_self]
      rfl
    · rw [if_neg hname, Function.update_of_ne hname, view_eq]
      simp only [hdropped.slotOf, if_neg hname]
  rw [hview]
  show (if (groupId mirror name).isSome then _ else _ : List ReplicaEvent).foldl _ _ = _
  cases hg : groupId mirror name with
  | some gid => rfl
  | none =>
    refine (Function.update_eq_self_iff.mpr ?_).symm
    show _ = view mirror name
    rw [view_eq, hg]
    rfl

/-- 消した group は、event が名指しする。 -/
theorem named_dropped {name : String}
    (h : holdings (dropGroupLocal mirror name).2 group ≠ holdings mirror group) :
    ∃ e ∈ (if (dropGroupLocal mirror name).1 then [ReplicaEvent.groupRemoved name] else []),
      e.group = some group := by
  have hdropped := dropGroupLocal_spec mirror name
  by_cases hname : group = name
  · subst hname
    have hheld : (dropGroupLocal mirror group).1 = true := by
      show (groupId mirror group).isSome = true
      cases hg : groupId mirror group with
      | some gid => rfl
      | none =>
        refine absurd ?_ h
        unfold holdings
        rw [hdropped.groups, if_pos rfl, hg]
        rfl
    rw [hheld]
    exact ⟨_, List.mem_singleton_self _, rfl⟩
  · refine absurd ?_ h
    unfold holdings
    rw [hdropped.groups, if_neg hname]
    refine congrArg (Option.map · _) (funext fun _ => funext fun n => ?_)
    rw [hdropped.slotOf, if_neg hname]

/-! ## 手続き -/

section Task

variable (base : List ReplicaEvent) (v₀ : View)

/-- 見え方 `v₀` に、`base` の後に流した event と `owed` を畳むと、いまの mirror の見え方になる。 -/
def Told (owed : List ReplicaEvent) (l : Link Replies) : Prop :=
  ∃ emitted, l.events = base ++ emitted ∧ (emitted ++ owed).foldl foldEvent v₀ = view l.mirror

def append (event : ReplicaEvent) (l : Link Replies) :
    Link Replies := { l with events := l.events ++ [event] }

/-- 読み手が動かすのは audit の行だけである。 -/
def Undisturbed (l l' : Link Replies) : Prop :=
  l'.events = l.events ∧ SameRows l.mirror l'.mirror

/-- event の決まり。 -/
def ledger : Ledger (Link Replies) ReplicaEvent where
  emit := append
  settled := Told base v₀
  settled_emit := by
    rintro e rest l ⟨emitted, he, hf⟩
    refine ⟨emitted ++ [e], ?_, ?_⟩
    · show l.events ++ [e] = _
      rw [he, List.append_assoc]
    · rw [List.append_assoc]
      exact hf
  rely := Undisturbed
  refl l := ⟨rfl, .refl _⟩
  trans h h' := ⟨h'.1.trans h.1, h.2.trans h'.2⟩
  stable := by
    rintro owed l l' ⟨he, log, hm⟩ ⟨emitted, hl, hf⟩
    refine ⟨emitted, he.trans hl, ?_⟩
    rw [hm]
    exact hf

variable {base v₀} {l : Link Replies} {prim : Primitives} {own : String}

/-- 書き込みを知らせる event の列。畳めば書き込みの後の見え方になり、中身の変わった group の
名前がどれも出る。 -/
structure Announced (l l' : Link Replies) (owed : List ReplicaEvent) : Prop where
  events : l'.events = l.events
  fold : owed.foldl foldEvent (view l.mirror) = view l'.mirror
  named : ∀ group, holdings l'.mirror group ≠ holdings l.mirror group →
    ∃ e ∈ owed, e.group = some group

theorem Announced.quiet {l l' : Link Replies} (he : l'.events = l.events)
    (hm : SameRows l.mirror l'.mirror) : Announced l l' [] := by
  obtain ⟨log, hm⟩ := hm
  refine ⟨he, ?_, fun group h => absurd ?_ h⟩
  · rw [hm]
    rfl
  · rw [hm]
    rfl

/-- 書き込みと event の対応。 -/
def herald : Herald (Link Replies) ReplicaEvent where
  emit := append
  covers := Announced
  covers_refl _ := .quiet rfl (.refl _)
  rely := Undisturbed
  refl _ := ⟨rfl, .refl _⟩
  trans h h' := ⟨h'.1.trans h.1, h.2.trans h'.2⟩

variable {owed : List ReplicaEvent} {s : Session Replies}

/-- 書き込みの前まで語り尽くされていれば、その event まで流せば後も語り尽くされる。 -/
theorem Announced.told {l l' : Link Replies} (h : Announced l l' owed) (htold : Told base v₀ [] l) :
    Told base v₀ owed l' := by
  obtain ⟨emitted, he, hf⟩ := htold
  refine ⟨emitted, h.events.trans he, ?_⟩
  rw [List.append_nil] at hf
  rw [List.foldl_append, hf]
  exact h.fold

/-- mirror に group があるかどうか。task のほかに書く者はいない。 -/
def Absent (name : String) (absent : Bool) (l : Link Replies) : Prop :=
  (groupId l.mirror name).isNone = absent

theorem stableAt_absent (name : String) (absent : Bool) : herald.StableAt (Absent name absent) := by
  rintro l l' ⟨-, log, hm⟩ h
  unfold Absent
  rw [hm]
  exact h

theorem stableAt_true : herald.StableAt fun _ => True := fun _ _ _ _ => trivial

/-- 返事を一つ受け取る動作は、mirror にも event にも触れない。 -/
theorem runs_reply {P : Link Replies → Prop}
    (hP : ∀ l l', l'.mirror = l.mirror → P l → P l') (hs : herald.StableAt P) (h : P l) :
    herald.Runs (fun _ => P)
      (.attempt fun l => l.upstream.head?.map fun reply =>
        (reply, { l with upstream := l.upstream.tail })) [] l := by
  refine Herald.Runs.attempt (fun _ => hs) ?_
  intro v hv reply u hu
  obtain ⟨r, -, he⟩ := Option.map_eq_some_iff.mp hu
  cases he
  exact ⟨.quiet rfl (.refl _), hP v _ rfl (hs _ _ hv h)⟩

theorem runs_fetchGroupState (group : String) :
    herald.Runs (fun _ _ => True) (fetchGroupState scripted group) [] l := by
  refine Herald.Runs.bind (runs_reply (fun _ _ _ _ => trivial) stableAt_true trivial) ?_
  exact fun _ _ _ => Herald.Runs.orFail (fun _ => stableAt_true) fun _ _ => trivial

theorem runs_fetchNeeded (group : String) (names : List String) {name : String} {absent : Bool}
    (h : Absent name absent l) :
    herald.Runs (fun _ => Absent name absent) (fetchNeeded scripted group names) [] l := by
  have hs := stableAt_absent name absent
  unfold fetchNeeded
  split
  · exact Herald.Runs.ret hs h
  · refine Herald.Runs.bind (runs_reply ?_ hs h) ?_
    · intro l l' hm h
      unfold Absent
      rw [hm]
      exact h
    · exact fun _ _ h => Herald.Runs.orFail (fun _ => hs) fun _ _ => h

theorem runs_touch : herald.Runs (fun _ _ => True) touchLastSynced [] l :=
  Herald.Runs.atomic (fun _ => stableAt_true) fun _ _ => ⟨.quiet rfl (.refl _), trivial⟩

/-- 反映の後に流す event は、反映を知らせる。 -/
theorem announced_commit {state : GroupSyncState} {fetched : List FetchedSecret} {absent : Bool}
    {changes : List AppliedChange} {db : Db} (habs : Absent state.name absent l)
    (happly : applyGroupSync l.mirror own state fetched = some (changes, db))
    (log : List AuditRow) :
    Announced l { l with mirror := db.withAudit log } (announcements state.name absent changes) := by
  obtain ⟨removed, db', gid, hspec, happlied, hremoved⟩ :=
    applyGroupSync_spec l.mirror own state fetched
  rw [hspec] at happly
  cases happly
  rw [← habs]
  have hfold := fold_applied happlied hremoved
  exact ⟨rfl, hfold, fun _ h => named_applied happlied hremoved h⟩

theorem runs_applyGroupState (state : GroupSyncState) :
    herald.Runs (fun _ _ => True) (applyGroupState scripted prim own state) [] l := by
  refine Herald.Runs.bind (show herald.Runs
    (fun needed => Absent state.name needed.2) _ [] l from ?_) ?_
  · exact Herald.Runs.atomic (fun needed => stableAt_absent state.name needed.2)
      fun v _ => ⟨.quiet rfl (.refl _), rfl⟩
  · intro needed v habs
    refine Herald.Runs.bind (runs_fetchNeeded state.name needed.1 habs) ?_
    rintro (_ | fetched) v habs
    · exact Herald.Runs.ret stableAt_true trivial
    · refine Herald.Runs.commit ?_
      intro w hw changes u hu
      obtain ⟨⟨changes', db⟩, happly, he⟩ := Option.map_eq_some_iff.mp hu
      cases he
      have habs := stableAt_absent state.name needed.2 _ _ hw habs
      refine ⟨_, announced_commit habs happly _, Herald.Runs.emitAll fun x => ?_⟩
      exact runs_touch.bind fun _ _ _ => Herald.Runs.ret stableAt_true trivial

theorem runs_dropGroup (name : String) :
    herald.Runs (fun _ _ => True) (dropGroup name) [] l := by
  intro v hv
  refine ⟨_, ⟨rfl, fold_dropped v.mirror name, fun _ => named_dropped⟩, ?_⟩
  show herald.Runs _ (if (dropGroupLocal v.mirror name).1 then emit _ else pure ()) _ _
  split
  · exact ⟨rfl, fun _ _ => ⟨rfl, fun _ _ => trivial⟩⟩
  · exact Herald.Runs.ret stableAt_true trivial

theorem runs_gcIdentities : herald.Runs (fun _ _ => True) gcIdentities [] l := by
  refine Herald.Runs.atomic (fun _ => stableAt_true) fun v _ => ?_
  exact ⟨⟨rfl, rfl, fun group h => absurd rfl h⟩, trivial⟩

theorem runs_dropGroupAndGc (name : String) :
    herald.Runs (fun _ _ => True) (dropGroupAndGc name) [] l :=
  (runs_dropGroup name).bind fun _ _ _ => runs_gcIdentities

theorem runs_syncOneGroup (state : GroupSyncState) :
    herald.Runs (fun _ _ => True) (syncOneGroup scripted prim own state) [] l := by
  have hdone : ∀ v, herald.Runs (fun _ _ => True) (pure ()) [] v :=
    fun v => Herald.Runs.ret stableAt_true trivial
  refine (runs_applyGroupState state).bind ?_
  rintro (_ | _) v -
  · next skipped =>
    cases skipped with
    | false => exact hdone v
    | true =>
      -- 差し控えた行があったので、一度だけ取り寄せ直す
      refine (runs_fetchGroupState state.name).bind ?_
      rintro (_ | fresh) w -
      · exact runs_dropGroupAndGc state.name
      · refine (runs_applyGroupState fresh).bind ?_
        rintro (_ | _) u -
        · exact hdone u
        · exact runs_dropGroupAndGc state.name
  · exact runs_dropGroupAndGc state.name

/-- task の手続きは、mirror の変化をその都度すべて知らせる。 -/
theorem runs_task (job : Job) :
    herald.Runs (fun _ _ => True) (job.task scripted prim own) [] l := by
  cases job with
  | group name =>
    refine (runs_fetchGroupState name).bind ?_
    rintro (_ | state) v -
    · exact runs_dropGroupAndGc name
    · exact runs_syncOneGroup state
  | resync stash =>
    refine (Herald.Runs.forM (fun state _ => runs_syncOneGroup state) stash).bind ?_
    intro _ v _
    refine Herald.Runs.bind (show herald.Runs (fun _ _ => True) _ [] v from
      Herald.Runs.atomic (fun _ => stableAt_true) fun _ _ => ⟨.quiet rfl (.refl _), trivial⟩) ?_
    intro stale v _
    refine (Herald.Runs.forM (fun name _ => runs_dropGroup name) stale).bind fun _ v _ => ?_
    exact runs_gcIdentities.bind fun _ _ _ => runs_touch

theorem pays_task (job : Job) :
    (ledger base v₀).Pays (fun _ _ => True) (job.task scripted prim own) [] l :=
  Ledger.Pays.ofRuns rfl id Announced.told (runs_task job)

/-! ## 実行 -/

/-- task の次の動作が流す event の列。 -/
def Session.Owes (s : Session Replies) (owed : List ReplicaEvent) : Prop :=
  match s.phase with
  | .working _ rest => rest.Emits append Undisturbed owed s.link
  | _ => owed = []

/-- 走っている手続きは、残りの event を流し切る。 -/
def Session.Paying (base : List ReplicaEvent) (v₀ : View)
    (s : Session Replies) : Prop :=
  match s.phase with
  | .working _ rest => ∃ owed, Told base v₀ owed s.link ∧
      (ledger base v₀).Pays (fun _ _ => True) rest owed s.link
  | _ => Told base v₀ [] s.link

theorem told_setConnected (h : Told base v₀ [] l) : Told base v₀ [] (setConnected l) := by
  obtain ⟨emitted, he, hf⟩ := h
  unfold setConnected
  split
  · exact ⟨emitted, he, hf⟩
  · refine ⟨emitted ++ [.connected], by simp [he], ?_⟩
    simpa [foldEvent] using hf

theorem told_setDisconnected (h : Told base v₀ [] l) : Told base v₀ [] (setDisconnected l) := by
  obtain ⟨emitted, he, hf⟩ := h
  unfold setDisconnected
  split
  · refine ⟨emitted ++ [.disconnected], by simp [he], ?_⟩
    simpa [foldEvent] using hf
  · exact ⟨emitted, he, hf⟩

theorem paying_at_rest {phase : Phase Replies}
    (hw : ∀ job p, phase ≠ .working job p) (h : Session.Paying base v₀ ⟨l, phase⟩) :
    Told base v₀ [] l := by
  cases phase with
  | working job p => exact absurd rfl (hw job p)
  | _ => exact h

theorem paying_start (h : Told base v₀ [] l) (job : Job) :
    Session.Paying base v₀ (start scripted prim own l job) := ⟨[], h, pays_task job⟩

/-- どの一歩も、借りを払いつつ進む。 -/
theorem paying_moves {s' : Session Replies} (hm : Session.Moves scripted prim own s s')
    (h : s.Paying base v₀) : s'.Paying base v₀ := by
  cases hm with
  | @idle l l' phase hidle =>
    obtain ⟨log, now, rfl⟩ := hidle
    have hr : Undisturbed l { l with mirror := l.mirror.withAudit log, now } := ⟨rfl, log, rfl⟩
    cases phase with
    | working job p =>
      obtain ⟨owed, htold, hpays⟩ := h
      exact ⟨owed, (ledger base v₀).stable hr htold, hpays.stable hr⟩
    | _ => exact (ledger base v₀).stable hr h
  | opened hphase =>
    rcases hphase with rfl | ⟨job, rfl⟩
    · exact h
    · exact h
  | @greeted l ok stash stash' message hmerge =>
    cases ok with
    | true => exact h
    | false => exact told_setConnected h
  | @listed l ok stash =>
    refine paying_start ?_ _
    cases ok with
    | true => exact h
    | false => exact told_setConnected h
  | pushed => exact paying_start h _
  | @acted l job update next =>
    obtain ⟨owed, htold, hpays⟩ := h
    have hrefl := (ledger base v₀).refl l
    cases owed with
    | nil => exact hpays l hrefl htold
    | cons e rest =>
      obtain ⟨rfl, hnext⟩ := hpays
      exact ⟨rest, (ledger base v₀).settled_emit htold, hnext l hrefl htold⟩
  | finished =>
    obtain ⟨owed, htold, rfl, -⟩ := h
    exact htold
  | failed =>
    obtain ⟨owed, htold, rfl⟩ := h
    exact told_setDisconnected htold
  | lost hw hl =>
    have htold := paying_at_rest hw h
    rcases hl with rfl | rfl
    · exact told_setDisconnected htold
    · exact told_setDisconnected (told_setConnected htold)
  | halted hw => exact paying_at_rest hw h

theorem paying_owes (h : s.Paying base v₀) : ∃ owed, Told base v₀ owed s.link ∧ s.Owes owed := by
  obtain ⟨l, phase⟩ := s
  cases phase with
  | working job p =>
    obtain ⟨owed, htold, hpays⟩ := h
    exact ⟨owed, htold, hpays.emits htold⟩
  | _ => exact ⟨[], h, rfl⟩

/-- 次の動作が event を流さないなら、流し残しは無い。 -/
theorem Session.Owes.eq_nil (h : s.Owes owed) (hq : s.advance.link.events = s.link.events) :
    owed = [] := by
  obtain ⟨l, phase⟩ := s
  cases phase with
  | working job p =>
    cases owed with
    | nil => rfl
    | cons e rest =>
      cases p with
      | ret a => exact h.elim
      | fail => exact h.elim
      | act update next =>
        have hevents : (update l).events = l.events := hq
        rw [h.1] at hevents
        simp [append] at hevents
  | _ => exact h

/-- 走っている手続きは、流し残し `owed` を流してから先へ進み、その後の書き込みも知らせる。 -/
def Session.Announcing (s : Session Replies) (owed : List ReplicaEvent) : Prop :=
  match s.phase with
  | .working _ rest => herald.Runs (fun _ _ => True) rest owed s.link
  | _ => owed = []

/-- 一歩で、流し残しは流れるか残り、書き込みの event が新しい流し残しになる。 -/
structure Session.Relays (s : Session Replies) (owed : List ReplicaEvent) (s' : Session Replies)
    (emitted owed' : List ReplicaEvent) : Prop where
  announcing : s'.Announcing owed'
  events : s'.link.events = s.link.events ++ emitted
  kept : ∀ e ∈ owed, e ∈ emitted ++ owed'
  named : ∀ group, holdings s'.link.mirror group ≠ holdings s.link.mirror group →
    ∃ e ∈ owed', e.group = some group

/-- 手続きの外の一歩。 -/
theorem Session.Relays.outside {s' : Session Replies} {emitted : List ReplicaEvent}
    (ha : s'.Announcing []) (he : s'.link.events = s.link.events ++ emitted)
    (hm : s'.link.mirror = s.link.mirror) : s.Relays [] s' emitted [] where
  announcing := ha
  events := he
  kept := fun _ h => absurd h List.not_mem_nil
  named := fun group h => absurd (by rw [hm]) h

theorem events_setConnected (l : Link Replies) : ∃ emitted,
    (setConnected l).events = l.events ++ emitted ∧ (setConnected l).mirror = l.mirror := by
  unfold setConnected
  split
  · exact ⟨[], (List.append_nil _).symm, rfl⟩
  · exact ⟨[.connected], rfl, rfl⟩

theorem events_setDisconnected (l : Link Replies) : ∃ emitted,
    (setDisconnected l).events = l.events ++ emitted ∧ (setDisconnected l).mirror = l.mirror := by
  unfold setDisconnected
  split
  · exact ⟨[.disconnected], rfl, rfl⟩
  · exact ⟨[], (List.append_nil _).symm, rfl⟩

theorem events_greeted (l : Link Replies) (ok : Bool) : ∃ emitted,
    (if ok then l else setConnected l).events = l.events ++ emitted ∧
      (if ok then l else setConnected l).mirror = l.mirror := by
  cases ok with
  | true => exact ⟨[], (List.append_nil _).symm, rfl⟩
  | false => exact events_setConnected l

theorem announcing_at_rest {l : Link Replies} {phase : Phase Replies}
    (hw : ∀ job p, phase ≠ .working job p) (h : Session.Announcing ⟨l, phase⟩ owed) :
    owed = [] := by
  cases phase with
  | working job p => exact absurd rfl (hw job p)
  | _ => exact h

/-- どの一歩も、変えたものを告げるか、借りに残す。 -/
theorem announcing_moves {s' : Session Replies} (hm : Session.Moves scripted prim own s s')
    (h : s.Announcing owed) : ∃ emitted owed', s.Relays owed s' emitted owed' := by
  cases hm with
  | @idle l l' phase hidle =>
    obtain ⟨log, now, rfl⟩ := hidle
    have hr : Undisturbed l { l with mirror := l.mirror.withAudit log, now } := ⟨rfl, log, rfl⟩
    refine ⟨[], owed, ?_, (List.append_nil _).symm, fun _ h => h, fun _ h => absurd rfl h⟩
    cases phase with
    | working job p => exact Herald.Runs.stable h hr
    | _ => exact h
  | opened hphase =>
    obtain rfl : owed = [] := announcing_at_rest (by rcases hphase with rfl | ⟨job, rfl⟩ <;> nofun) h
    exact ⟨[], [], .outside rfl (List.append_nil _).symm rfl⟩
  | @greeted l ok stash stash' message hmerge =>
    obtain rfl : owed = [] := h
    obtain ⟨emitted, he, hm⟩ := events_greeted l ok
    exact ⟨emitted, [], .outside rfl he hm⟩
  | @listed l ok stash =>
    obtain rfl : owed = [] := h
    obtain ⟨emitted, he, hm⟩ := events_greeted l ok
    exact ⟨emitted, [], .outside (runs_task _) he hm⟩
  | pushed =>
    obtain rfl : owed = [] := h
    exact ⟨[], [], .outside (runs_task _) (List.append_nil _).symm rfl⟩
  | @acted l job update next =>
    cases owed with
    | nil =>
      obtain ⟨owed', hc, hnext⟩ := h l (herald.refl l)
      refine ⟨[], owed', hnext, hc.events.trans (List.append_nil _).symm, ?_, hc.named⟩
      exact fun _ h => absurd h List.not_mem_nil
    | cons e rest =>
      obtain ⟨rfl, hnext⟩ := h
      exact ⟨[e], rest, hnext l (herald.refl l), rfl, fun _ h => h, fun _ h => absurd rfl h⟩
  | finished =>
    obtain ⟨rfl, -⟩ := h
    exact ⟨[], [], .outside rfl (List.append_nil _).symm rfl⟩
  | @failed l job =>
    obtain rfl : owed = [] := h
    obtain ⟨emitted, he, hm⟩ := events_setDisconnected l
    exact ⟨emitted, [], .outside rfl he hm⟩
  | @lost l l' phase hw hl =>
    obtain rfl := announcing_at_rest hw h
    obtain ⟨first, he, hm⟩ : ∃ emitted, l'.events = l.events ++ emitted ∧ l'.mirror = l.mirror := by
      rcases hl with rfl | rfl
      · exact ⟨[], (List.append_nil _).symm, rfl⟩
      · exact events_setConnected l
    obtain ⟨second, he', hm'⟩ := events_setDisconnected l'
    refine ⟨first ++ second, [], .outside rfl ?_ (hm'.trans hm)⟩
    show (setDisconnected l').events = _
    rw [he', he, List.append_assoc]
  | halted hw =>
    obtain rfl := announcing_at_rest hw h
    exact ⟨[], [], .outside rfl (List.append_nil _).symm rfl⟩

theorem Session.Announcing.owes (h : s.Announcing owed) : s.Owes owed := by
  obtain ⟨l, phase⟩ := s
  cases phase with
  | working job p => exact Herald.Runs.emits h
  | _ => exact h

end Task

/-- **event は mirror を語り尽くし、偽らない。** どんな mirror から始め、上流が何を返し、
どこで失敗しても、流した event と流し残しを始めの見え方に畳むと、いまの mirror の見え方になる。
流し残しは task が次に流す event であり、その間 mirror は動かない。
反映か削除を終えて次の動作が event でないなら、流し残しは無い。 -/
theorem events_tell_the_mirror (prim : Primitives) (own : String)
    (l₀ : Link Replies) (acts : List Act) :
    let s := (Session.mk l₀ .down).exec scripted prim own acts
    ∃ emitted owed, s.link.events = l₀.events ++ emitted ∧ s.Owes owed ∧
      (emitted ++ owed).foldl foldEvent (view l₀.mirror) = view s.link.mirror ∧
      (s.advance.link.events = s.link.events → owed = []) := by
  intro s
  have hstart : Session.Paying l₀.events (view l₀.mirror) ⟨l₀, .down⟩ :=
    ⟨[], (List.append_nil _).symm, rfl⟩
  have h : s.Paying l₀.events (view l₀.mirror) :=
    Session.exec_induction (fun _ _ => paying_moves) hstart acts
  obtain ⟨owed, ⟨emitted, he, hf⟩, howes⟩ := paying_owes h
  exact ⟨emitted, owed, he, howes, hf, howes.eq_nil⟩

end Replica

end SecretBunker
