import SecretBunker.Replica.Session

/-!
# manifest の分割と組み立て

送る側は snapshot を message に分け、受ける側は同じ名前の message を一つの状態に併せる。
併せた結果を名前で引けば、それは自分の名前の message だけで、しかも載っている行を
つないだ列だけで決まる。だから message をどう分けても、ほかの group の message が
どう挟まっても、組み立てた状態は変わらない。変わりうるのは group の並び順だけである。
-/

namespace SecretBunker

namespace Sync

/-! ## 名前で引いた状態 -/

def stateOf (stash : List GroupSyncState) (name : String) : Option GroupSyncState :=
  stash.find? fun s => s.name = name

theorem stateOf_eq_some {stash : List GroupSyncState} (hnd : (stash.map (·.name)).Nodup)
    {s : GroupSyncState} : stateOf stash s.name = some s ↔ s ∈ stash := by
  unfold stateOf
  refine ⟨List.mem_of_find?_eq_some, fun hs => ?_⟩
  cases hf : stash.find? fun t => t.name = s.name with
  | none => exact absurd (decide_eq_true rfl) (List.find?_eq_none.mp hf s hs)
  | some t =>
    have hname : t.name = s.name := by simpa using List.find?_some hf
    rw [List.inj_on_of_nodup_map hnd (List.mem_of_find?_eq_some hf) hs hname]

/-- 名前の重ならない二つの列は、どの名前で引いても同じなら、並び順しか違わない。 -/
theorem perm_of_stateOf {stash stash' : List GroupSyncState} (hnd : (stash.map (·.name)).Nodup)
    (hnd' : (stash'.map (·.name)).Nodup) (h : ∀ name, stateOf stash' name = stateOf stash name) :
    stash'.Perm stash := by
  rw [List.perm_ext_iff_of_nodup hnd'.of_map hnd.of_map]
  intro s
  rw [← stateOf_eq_some hnd', ← stateOf_eq_some hnd, h]

section MergeInto

variable {f : GroupSyncState → GroupSyncState} (hf : ∀ s, (f s).name = s.name)

include hf

/-- 混ぜるのは、名前の同じ group の状態だけである。 -/
theorem stateOf_mergeInto (stash : List GroupSyncState) (name n : String) :
    stateOf (mergeInto stash name f) n =
      if n = name then some (f ((stateOf stash name).getD { name })) else stateOf stash n := by
  induction stash with
  | nil =>
    by_cases h : n = name
    · simp [mergeInto, stateOf, hf, h]
    · simp [mergeInto, stateOf, hf, h, Ne.symm h]
  | cons s rest ih =>
    unfold stateOf at ih ⊢
    by_cases hs : s.name = name
    · by_cases h : n = name
      · simp [mergeInto, hs, hf, h]
      · simp [mergeInto, hs, hf, h, Ne.symm h]
    · by_cases h : s.name = n
      · simp [mergeInto, h, show ¬ n = name from h ▸ hs]
      · simp [mergeInto, hs, h, ih]

theorem mem_names_mergeInto (stash : List GroupSyncState) (name n : String) :
    n ∈ (mergeInto stash name f).map (·.name) ↔ n ∈ stash.map (·.name) ∨ n = name := by
  induction stash with
  | nil => simp [mergeInto, hf]
  | cons s rest ih =>
    by_cases hs : s.name = name
    · simp only [mergeInto, hs, if_true, List.map_cons, hf, List.mem_cons]
      tauto
    · simp only [mergeInto, hs, if_false, List.map_cons, List.mem_cons, ih, or_assoc]

theorem names_mergeInto_nodup {stash : List GroupSyncState} (name : String)
    (hnd : (stash.map (·.name)).Nodup) : ((mergeInto stash name f).map (·.name)).Nodup := by
  induction stash with
  | nil => exact List.nodup_singleton _
  | cons s rest ih =>
    rw [List.map_cons, List.nodup_cons] at hnd
    by_cases hs : s.name = name
    · rw [mergeInto, if_pos hs, List.map_cons, hf, List.nodup_cons]
      exact hnd
    · rw [mergeInto, if_neg hs, List.map_cons, List.nodup_cons, mem_names_mergeInto hf]
      exact ⟨fun h => h.elim hnd.1 hs, ih hnd.2⟩

end MergeInto

/-! ## 自分の message -/

/-- message が載せている group。manifest に現れない message なら無い。 -/
def subject : SyncMessage → Option String
  | .group name _ _ => some name
  | .groupSecrets group _ => some group
  | _ => none

/-- message の行を状態に併せる。 -/
def absorb (s : GroupSyncState) : SyncMessage → GroupSyncState
  | .group _ acl deks => addGroup acl deks s
  | .groupSecrets _ secrets => addSecrets secrets s
  | _ => s

theorem absorb_name (m : SyncMessage) (s : GroupSyncState) : (absorb s m).name = s.name := by
  cases m <;> rfl

theorem merge_of_subject {m : SyncMessage} {g : String} (h : subject m = some g)
    (stash : List GroupSyncState) : merge stash m = some (mergeInto stash g fun s => absorb s m) := by
  cases m with
  | group name acl deks =>
    cases h
    rfl
  | groupSecrets group secrets =>
    cases h
    rfl
  | _ => cases h

/-- `g` の message だけを拾う。 -/
def about (g : String) (messages : List SyncMessage) : List SyncMessage :=
  messages.filter fun m => subject m = some g

/-- `g` の message を順に併せる。まだ無ければ空の状態から始める。 -/
def gather (g : String) (messages : List SyncMessage) (old : Option GroupSyncState) :
    Option GroupSyncState :=
  messages.foldl (fun o m => some (absorb (o.getD { name := g }) m)) old

/-- manifest の message だけからなる列は必ず併せられ、どの group も自分の message だけで決まる。 -/
theorem foldlM_merge (messages : List SyncMessage) (hm : ∀ m ∈ messages, (subject m).isSome)
    {stash : List GroupSyncState} (hnd : (stash.map (·.name)).Nodup) :
    ∃ stash', messages.foldlM merge stash = some stash' ∧ (stash'.map (·.name)).Nodup ∧
      ∀ g, stateOf stash' g = gather g (about g messages) (stateOf stash g) := by
  induction messages generalizing stash with
  | nil => exact ⟨stash, rfl, hnd, fun _ => rfl⟩
  | cons m rest ih =>
    obtain ⟨name, hname⟩ := Option.isSome_iff_exists.mp (hm m List.mem_cons_self)
    obtain ⟨stash', hfold, hnd', hstate⟩ := ih (fun x hx => hm x (List.mem_cons_of_mem _ hx))
      (names_mergeInto_nodup (absorb_name m) name hnd)
    refine ⟨stash', ?_, hnd', fun g => ?_⟩
    · rw [List.foldlM_cons, merge_of_subject hname]
      exact hfold
    · rw [hstate, stateOf_mergeInto (absorb_name m)]
      by_cases hg : g = name
      · subst hg
        rw [if_pos rfl, about, about, List.filter_cons_of_pos (by simpa using hname)]
        rfl
      · have hne : ¬ subject m = some g := fun h => hg (Option.some.inj (h.symm.trans hname))
        rw [if_neg hg, about, about, List.filter_cons_of_neg (by simpa using hne)]

/-! ## 分けること -/

/-- message を、行の並びを保ったまま一つ以上の message に分ける。 -/
inductive Split : SyncMessage → List SyncMessage → Prop
  | group (name : String) {pieces : List (List AclEntry × List DekEntry)} (nonempty : pieces ≠ []) :
      Split (.group name (pieces.flatMap (·.1)) (pieces.flatMap (·.2)))
        (pieces.map fun p => .group name p.1 p.2)
  | secrets (group : String) {pieces : List (List SecretEntry)} (nonempty : pieces ≠ []) :
      Split (.groupSecrets group pieces.flatten) (pieces.map (.groupSecrets group))

/-- 列の message をそれぞれ分けて並べたもの。 -/
def Refines (messages messages' : List SyncMessage) : Prop :=
  ∃ parts, List.Forall₂ Split messages parts ∧ messages' = parts.flatten

/-- 分けた message を、group ごとの順を保って混ぜたもの。 -/
def Resplit (messages messages' : List SyncMessage) : Prop :=
  ∀ g, Refines (about g messages) (about g messages')

theorem gather_append (g : String) (l l' : List SyncMessage) (o : Option GroupSyncState) :
    gather g (l ++ l') o = gather g l' (gather g l o) := List.foldl_append

theorem gather_groups (g name : String) (pieces : List (List AclEntry × List DekEntry))
    (s : GroupSyncState) :
    gather g (pieces.map fun p => .group name p.1 p.2) (some s) =
      some (addGroup (pieces.flatMap (·.1)) (pieces.flatMap (·.2)) s) := by
  induction pieces generalizing s with
  | nil => simp [gather, addGroup]
  | cons p rest ih =>
    refine (ih (addGroup p.1 p.2 s)).trans ?_
    simp [addGroup]

theorem gather_listings (g group : String) (pieces : List (List SecretEntry)) (s : GroupSyncState) :
    gather g (pieces.map (.groupSecrets group)) (some s) = some (addSecrets pieces.flatten s) := by
  induction pieces generalizing s with
  | nil => simp [gather, addSecrets]
  | cons p rest ih =>
    refine (ih (addSecrets p s)).trans ?_
    simp [addSecrets]

/-- 分けても、併せた状態は変わらない。 -/
theorem gather_split {m : SyncMessage} {parts : List SyncMessage} (h : Split m parts) (g : String)
    (o : Option GroupSyncState) : gather g parts o = gather g [m] o := by
  -- 一つ目の断片で状態ができ、残りはその後ろに付く
  cases h with
  | @group name pieces hne =>
    cases pieces with
    | nil => exact absurd rfl hne
    | cons p rest =>
      refine (gather_groups g name rest _).trans ?_
      simp [gather, absorb, addGroup]
  | @secrets group pieces hne =>
    cases pieces with
    | nil => exact absurd rfl hne
    | cons p rest =>
      refine (gather_listings g group rest _).trans ?_
      simp [gather, absorb, addSecrets]

theorem gather_refines {messages messages' : List SyncMessage} (h : Refines messages messages')
    (g : String) (o : Option GroupSyncState) : gather g messages' o = gather g messages o := by
  obtain ⟨parts, hparts, rfl⟩ := h
  induction hparts generalizing o with
  | nil => rfl
  | @cons m part ms parts hsplit _ ih =>
    rw [List.flatten_cons, gather_append, ih, gather_split hsplit, ← gather_append]
    rfl

/-- 分けて混ぜた message を併せても、group の並び順しか変わらない。 -/
theorem merge_resplit {messages messages' : List SyncMessage}
    (hm : ∀ m ∈ messages, (subject m).isSome) (hm' : ∀ m ∈ messages', (subject m).isSome)
    (h : Resplit messages messages') :
    ∃ stash stash', messages.foldlM merge [] = some stash ∧
      messages'.foldlM merge [] = some stash' ∧ stash'.Perm stash := by
  obtain ⟨stash, hfold, hnd, hstate⟩ := @foldlM_merge messages hm [] List.nodup_nil
  obtain ⟨stash', hfold', hnd', hstate'⟩ := @foldlM_merge messages' hm' [] List.nodup_nil
  refine ⟨stash, stash', hfold, hfold', perm_of_stateOf hnd hnd' fun g => ?_⟩
  rw [hstate, hstate', gather_refines (h g)]

/-- `g` の message だけの列を `fetch_group_state` で読む。 -/
theorem collectGroup_gather (messages : List SyncMessage) (state : GroupSyncState)
    (hm : ∀ m ∈ messages, subject m = some state.name) :
    collectGroup state (messages ++ [.fetchDone]) =
      some (gather state.name messages (some state)) := by
  induction messages generalizing state with
  | nil => rfl
  | cons m rest ih =>
    have hrest : ∀ x ∈ rest, subject x = some (absorb state m).name := by
      rw [absorb_name]
      exact fun x hx => hm x (List.mem_cons_of_mem _ hx)
    have hstep : collectGroup state (m :: rest ++ [.fetchDone]) =
        collectGroup (absorb state m) (rest ++ [.fetchDone]) := by
      have hname := hm m List.mem_cons_self
      cases m with
      | group name acl deks =>
        cases hname
        exact if_pos rfl
      | groupSecrets group secrets =>
        cases hname
        exact if_pos rfl
      | _ => cases hname
    rw [hstep, ih _ hrest, absorb_name]
    rfl

theorem merge_snapshots (stash snaps : List GroupSyncState)
    (hnd : ((stash ++ snaps).map (·.name)).Nodup) :
    (snaps.flatMap groupMessages).foldlM merge stash = some (stash ++ snaps) := by
  induction snaps generalizing stash with
  | nil => simp
  | cons snap rest ih =>
    have hfresh : ∀ t ∈ stash, t.name ≠ snap.name := by
      rw [List.map_append, List.nodup_append] at hnd
      exact fun t ht => hnd.2.2 _ (List.mem_map_of_mem ht) _ List.mem_cons_self
    rw [List.flatMap_cons, List.foldlM_append, merge_groupMessages stash snap hfresh]
    show (rest.flatMap groupMessages).foldlM merge (stash ++ [snap]) = _
    rw [ih (stash ++ [snap]) (by rwa [List.append_assoc]), List.append_assoc]
    rfl

end Sync

/-! ## 接続の最初の相 -/

namespace Replica

open Sync

variable {Υ : Type} (up : Upstream Υ) (prim : Primitives) (own : String)

/-- 併せられる message の列を読み、`ManifestDone` を受けた task は、併せた結果を反映にかける。 -/
theorem exec_manifest {messages : List SyncMessage} {stash stash' : List GroupSyncState}
    (h : messages.foldlM merge stash = some stash') (ok : Bool) (l : Link Υ) :
    (⟨l, .manifest ok stash⟩ : Session Υ).exec up prim own
        ((messages ++ [SyncMessage.manifestDone]).map Act.receive) =
      start up prim own (if ok then l else setConnected l) (.resync stash') := by
  induction messages generalizing stash ok l with
  | nil =>
    cases h
    cases ok <;> rfl
  | cons m rest ih =>
    rw [List.foldlM_cons] at h
    obtain ⟨mid, hmid, hrest⟩ := Option.bind_eq_some_iff.mp h
    have hstep : receiveManifest up prim own ok stash l m =
        ⟨if ok then l else setConnected l, .manifest true mid⟩ := by
      unfold receiveManifest
      cases m with
      | group name acl deks =>
        cases hmid
        cases ok <;> rfl
      | groupSecrets group secrets =>
        cases hmid
        cases ok <;> rfl
      | _ => cases hmid
    refine Eq.trans ?_ (ih hrest true (if ok then l else setConnected l))
    rw [← hstep]
    rfl

/-- Hello の後に `messages` と `ManifestDone` を読む。 -/
def readManifest (l : Link Υ) (messages : List SyncMessage) : Session Υ :=
  (⟨l, .manifest false []⟩ : Session Υ).exec up prim own
    ((messages ++ [SyncMessage.manifestDone]).map Act.receive)

/-- **manifest の分割は元に戻る。** 名前の重ならない snapshot の列は、送られた message から
そのままの順で組み立てられ、一つの snapshot は `fetch_group_state` でも元に戻る。
message を分けて送っても、ほかの group の message と混ざっても、変わるのは group の並び順だけである。 -/
theorem manifest_roundtrip (l : Link Υ) :
    (∀ snaps : List GroupSyncState, (snaps.map (·.name)).Nodup →
      readManifest up prim own l (snaps.flatMap groupMessages) =
        start up prim own (setConnected l) (.resync snaps)) ∧
    (∀ snap : GroupSyncState,
      collectGroup { name := snap.name } (groupMessages snap ++ [.fetchDone]) = some (some snap)) ∧
    (∀ messages messages' : List SyncMessage, (∀ m ∈ messages, (subject m).isSome) →
      (∀ m ∈ messages', (subject m).isSome) → Resplit messages messages' →
      ∃ stash stash', stash'.Perm stash ∧
        readManifest up prim own l messages =
          start up prim own (setConnected l) (.resync stash) ∧
        readManifest up prim own l messages' =
          start up prim own (setConnected l) (.resync stash')) ∧
    ∀ (g : String) (messages messages' : List SyncMessage), (∀ m ∈ messages, subject m = some g) →
      (∀ m ∈ messages', subject m = some g) → Refines messages messages' →
      collectGroup { name := g } (messages' ++ [.fetchDone]) =
        collectGroup { name := g } (messages ++ [.fetchDone]) := by
  refine ⟨?_, collectGroup_groupMessages, ?_, ?_⟩
  · intro snaps hnd
    exact exec_manifest up prim own (merge_snapshots [] snaps hnd) false l
  · intro messages messages' hm hm' h
    obtain ⟨stash, stash', hfold, hfold', hperm⟩ := merge_resplit hm hm' h
    exact ⟨stash, stash', hperm, exec_manifest up prim own hfold false l,
      exec_manifest up prim own hfold' false l⟩
  · intro g messages messages' hm hm' h
    rw [collectGroup_gather messages { name := g } hm, collectGroup_gather messages' { name := g } hm',
      gather_refines h]

end Replica

end SecretBunker
