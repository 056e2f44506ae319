import SecretBunker.Operator.Conduct

/-!
# 並んで走る reconcile

一つの namespace のいくつもの CR の reconcile が並んで走り、ほかの client も Secret を書く。
`apply_bunker_secret` は GET で所有を確かめ、別の API 呼び出しで強制の server-side apply を行う。
二つの間に誰かが同じ名前の Secret を書けば、確かめたはずの所有はもう当てにならない。

書き込みを控えた reconcile の Secret を、ほかの者がその CR の持ち物でないものにしない経過では、CR の持ち物で
ない Secret が書き換えられることはない。
-/

namespace SecretBunker

open Interleaving Ordered

namespace Operator

/-- API server と、CR ごとに高々一つの走っている reconcile。 -/
structure Fleet where
  world : World
  tasks : String → Option Task

namespace Fleet

/-- 系の一歩。`secret` は、ほかの client が Secret を作り、書き換え、消すことである。 -/
inductive Move where
  | reconcile (name : String)
  | advance (name : String)
  | stop (name : String)
  | secret (name : String) (stored : Option StoredSecret)
  | cr (name : String) (cr : Option BunkerSecret)
  | sync (mirror : Db) (lastSynced : Option Int) (disconnectedFor : Option Nat)
  | tick (now : Int) (recorderUp : Bool)

variable (cfg : Config)

/-- 一つの CR の reconcile だけを見た状態。 -/
def only (f : Fleet) (name : String) : State := ⟨f.world, f.tasks name⟩

def put (f : Fleet) (name : String) (s : State) : Fleet :=
  ⟨s.world, Function.update f.tasks name s.task⟩

def step (f : Fleet) : Move → Fleet
  | .reconcile name =>
    match f.tasks name, f.world.crs name with
    | none, some cr => f.put name ⟨f.world, some (Task.begin cfg cr)⟩
    | _, _ => f
  | .advance name => f.put name ((f.only name).advance name)
  | .stop name => f.put name ⟨f.world, none⟩
  | .secret name stored =>
    { f with world := { f.world with secrets := Function.update f.world.secrets name stored } }
  | .cr name cr => { f with world := { f.world with crs := Function.update f.world.crs name cr } }
  | .sync mirror lastSynced disconnectedFor =>
    { f with world := { f.world with mirror, lastSynced, disconnectedFor } }
  | .tick now recorderUp => { f with world := { f.world with now, recorderUp } }

def exec (f : Fleet) (moves : List Move) : Fleet := moves.foldl (step cfg) f

/-! ## 書き込みを控えた reconcile -/

/-- 動作 `update` は Secret `m` を書く。 -/
def Touches (update : World → World) (m : String) : Prop :=
  ∃ w, (update w).secrets m ≠ w.secrets m

/-- CR `name` の reconcile の次の API 呼び出しは、Secret `m` を書く。 -/
def Poised (f : Fleet) (name m : String) : Prop :=
  ∃ task update next, f.tasks name = some task ∧ task.rest = .act update next ∧ Touches update m

/-- 書き込みを控えた reconcile の Secret `m` が、その CR の持ち物でない `after` になる。 -/
def Disturbs (f : Fleet) (name m : String) (after : Option StoredSecret) : Prop :=
  f.Poised name m ∧ ∃ task s, f.tasks name = some task ∧ after = some s ∧
    ownedBy (s.read task.cr.nameSpace m) task.cr = false

/-- 書き込みを控えた reconcile の Secret を、ほかの者がその CR の持ち物でないものに書き換えない。 -/
def Courteous (f : Fleet) : Move → Prop
  | .secret m stored => ∀ name, ¬ f.Disturbs name m stored
  | .advance name => ∀ other m, other ≠ name →
      ((f.only name).advance name).world.secrets m ≠ f.world.secrets m →
      ¬ f.Disturbs other m (((f.only name).advance name).world.secrets m)
  | _ => True

/-- どの一歩も、その直前の状態で控えられている。 -/
def Follows : Fleet → List Move → Prop
  | _, [] => True
  | f, m :: rest => f.Courteous m ∧ Follows (f.step cfg m) rest

/-! ## 作法 -/

/-- CR の持ち物でない Secret には触れない作法。 -/
def cautious (cr : BunkerSecret) : Manners World where
  rely := fun update v w => ∀ m, Touches update m → Vacant cr v m → Vacant cr w m
  guar := fun _ w w' => ∀ m s, w.secrets m = some s → ownedBy (s.read cr.nameSpace m) cr = false →
    w'.secrets m = w.secrets m

variable {w : World} {name : String}

/-- 直前の GET で持ち物と分かった Secret だけを書く動作は、作法に適う。 -/
theorem guar_cautious {cr : BunkerSecret} {update : World → World} {g w' : World} {n : String}
    {stored : Option StoredSecret} {steps : List (World × World)} (hg : Vacant cr g n)
    (hrely : (cautious cr).rely update g w) (hw : update w = w')
    (h : w'.secrets = Function.update w.secrets n stored) : (cautious cr).guar steps w w' := by
  subst hw
  intro m s hs hforeign
  by_contra hne
  have hm : m = n := by
    by_contra hmn
    exact hne (by rw [h, Function.update_of_ne hmn])
  subst hm
  rw [hrely m ⟨w, hne⟩ hg s hs] at hforeign
  cases hforeign

theorem Owned.vacant {cr : BunkerSecret} {g : World} {n : String} (h : Owned cr g n) :
    Vacant cr g n := by
  obtain ⟨s, hs, ho⟩ := h
  intro s' hs'
  rw [hs] at hs'
  cases hs'
  exact ho

theorem tenets_cautious (cr : BunkerSecret) : Tenets cfg cr (cautious cr) where
  quiet := fun h m _ _ _ => congrFun (congrArg Prod.fst h) m
  write := fun _ _ hg hrely h => guar_cautious hg hrely rfl h
  retire := fun _ _ _ _ _ hg hrely _ h => guar_cautious (Owned.vacant hg) hrely rfl h

theorem heeds_cleanupBunkerSecret (cr : BunkerSecret) :
    (cautious cr).Heeds (fun _ _ => True) [] (cleanupBunkerSecret cr) := by
  unfold cleanupBunkerSecret
  split
  · trivial
  · refine .read_bind (fun _ _ _ _ _ => rfl) fun g => ?_
    refine Manners.Heeds.bind (show (cautious cr).Heeds (fun _ _ => True) _ _ from ?_)
      fun _ _ _ => trivial
    split
    · next howned =>
      have hg : Vacant cr g cr.targetName := by
        intro s hs
        rw [hs] at howned
        exact howned
      refine .attempt (fun w _ m _ _ _ => rfl) fun w a w' hw hstep => ⟨?_, trivial⟩
      obtain ⟨s, hs, he⟩ := Option.map_eq_some_iff.mp hstep
      cases he
      exact guar_cautious hg (hw (g, g) rfl) (by simp [hs]) rfl
    · trivial

theorem heeds_begin (cr : BunkerSecret) :
    (cautious (Task.begin cfg cr).cr).Heeds (fun _ _ => True) [] (Task.begin cfg cr).rest := by
  unfold Task.begin
  split
  · exact heeds_cleanupBunkerSecret cr
  · exact (tenets_cautious cfg cr).heeds_applyBunkerSecret

/-! ## 系の全体 -/

/-- 走っている reconcile はどれも作法を守っていて、前の動作から後、次に書く Secret は他人のものになって
いない。 -/
def Kept (f : Fleet) : Prop :=
  ∀ name task, f.tasks name = some task → ∃ steps,
    (cautious task.cr).Heeds (fun _ _ => True) steps task.rest ∧
    ∀ update next, task.rest = .act update next → (cautious task.cr).Admits steps update f.world

variable {cfg} {f : Fleet}

/-- ほかの一歩で変わらないか乱されない Secret は、控えた CR にとって空いたままである。 -/
theorem vacant_of_not_disturbs {m : String} {task : Task} (htask : f.tasks name = some task)
    (hp : f.Poised name m)
    (h : w.secrets m ≠ f.world.secrets m → ¬ f.Disturbs name m (w.secrets m))
    (hv : Vacant task.cr f.world m) : Vacant task.cr w m := by
  intro s hs
  by_cases hsame : w.secrets m = f.world.secrets m
  · exact hv s (hsame.symm.trans hs)
  · by_contra hforeign
    exact h hsame ⟨hp, task, s, htask, hs, Bool.not_eq_true _ ▸ hforeign⟩

/-- 控えている reconcile を乱さない一歩の後も、その reconcile の次の動作は許される。 -/
theorem Kept.admits (h : f.Kept) {task : Task}
    (hw : ∀ m, w.secrets m ≠ f.world.secrets m → ¬ f.Disturbs name m (w.secrets m))
    (htask : f.tasks name = some task) : ∃ steps,
      (cautious task.cr).Heeds (fun _ _ => True) steps task.rest ∧
      ∀ update next, task.rest = .act update next → (cautious task.cr).Admits steps update w := by
  obtain ⟨steps, hheeds, hadmits⟩ := h name task htask
  refine ⟨steps, hheeds, fun update next hrest last hlast m hm hv => ?_⟩
  exact vacant_of_not_disturbs htask ⟨task, update, next, htask, hrest, hm⟩ (hw m)
    (hadmits update next hrest last hlast m hm hv)

/-- 走っている reconcile を乱さない一歩。 -/
theorem Kept.still (h : f.Kept)
    (hw : ∀ name m, w.secrets m ≠ f.world.secrets m → ¬ f.Disturbs name m (w.secrets m)) :
    Kept ⟨w, f.tasks⟩ :=
  fun name _ htask => h.admits (hw name) htask

/-- 一つの reconcile を置き換える。 -/
theorem Kept.put (h : f.Kept) {s : State}
    (hw : ∀ other m, other ≠ name → s.world.secrets m ≠ f.world.secrets m →
      ¬ f.Disturbs other m (s.world.secrets m)) (hs : ∀ task, s.task = some task → ∃ steps,
      (cautious task.cr).Heeds (fun _ _ => True) steps task.rest ∧
      ∀ update next, task.rest = .act update next → (cautious task.cr).Admits steps update s.world) :
    (f.put name s).Kept := by
  intro other task htask
  change Function.update f.tasks name s.task other = some task at htask
  by_cases hother : other = name
  · rw [hother, Function.update_self] at htask
    exact hs task htask
  · rw [Function.update_of_ne hother] at htask
    exact h.admits (fun m => hw other m hother) htask

/-- reconcile の一歩は、持ち物でない Secret に触れず、次の動作の前の状態を整える。 -/
theorem Kept.advance (h : f.Kept) (name : String) :
    (∀ task, f.tasks name = some task → ∀ m s, f.world.secrets m = some s →
      ownedBy (s.read task.cr.nameSpace m) task.cr = false →
      ((f.only name).advance name).world.secrets m = f.world.secrets m) ∧
    ∀ task, ((f.only name).advance name).task = some task → ∃ steps,
      (cautious task.cr).Heeds (fun _ _ => True) steps task.rest ∧
      ∀ update next, task.rest = .act update next →
        (cautious task.cr).Admits steps update ((f.only name).advance name).world := by
  unfold only
  cases htask : f.tasks name with
  | none =>
    refine ⟨fun _ ht => ?_, fun _ ht => ?_⟩
    · cases ht
    · cases ht
  | some task =>
    obtain ⟨arm, cr, rest⟩ := task
    cases rest with
    | fail => exact ⟨fun _ _ _ _ _ _ => rfl, fun _ ht => nomatch ht⟩
    | ret result =>
      cases arm with
      | apply => exact ⟨fun _ _ _ _ _ _ => rfl, fun _ ht => nomatch ht⟩
      | cleanup => cases result <;> exact ⟨fun _ _ _ _ _ _ => rfl, fun _ ht => nomatch ht⟩
    | act update next =>
      obtain ⟨steps, hheeds, hadmits⟩ := h name _ htask
      obtain ⟨hguar, hnext⟩ := hheeds f.world (hadmits update next rfl)
      refine ⟨fun task ht => ?_, fun task ht => ?_⟩
      · cases ht
        exact hguar
      · cases ht
        refine ⟨_, hnext, fun update' next' _ last hlast m _ hv => ?_⟩
        rw [List.getLast?_concat] at hlast
        cases hlast
        exact hv

theorem not_disturbs_of_none {m : String} {after : Option StoredSecret} (h : f.tasks name = none) :
    ¬ f.Disturbs name m after := by
  rintro ⟨-, task, -, htask, -⟩
  rw [h] at htask
  cases htask

/-- 行儀のよい一歩は `Kept` を保つ。 -/
theorem Kept.step (h : f.Kept) {move : Move} (hc : f.Courteous move) : (f.step cfg move).Kept := by
  cases move with
  | reconcile name =>
    unfold Fleet.step
    dsimp only
    split
    · next cr _ _ =>
      refine h.put (fun _ _ _ hne => absurd rfl hne) fun task ht => ?_
      cases ht
      exact ⟨[], heeds_begin cfg cr, fun _ _ _ last hlast => nomatch hlast⟩
    · exact h
  | advance name => exact h.put hc (h.advance name).2
  | stop name =>
    refine h.put (fun _ _ _ hne => absurd rfl hne) fun task ht => ?_
    cases ht
  | secret n stored =>
    refine h.still fun name m hne => ?_
    have hm : m = n := by
      by_contra hmn
      exact hne (Function.update_of_ne hmn _ _)
    subst hm
    show ¬ f.Disturbs name m (Function.update f.world.secrets m stored m)
    rw [Function.update_self]
    exact hc name
  | cr name cr => exact h.still fun _ _ hne => absurd rfl hne
  | sync mirror lastSynced disconnectedFor => exact h.still fun _ _ hne => absurd rfl hne
  | tick now recorderUp => exact h.still fun _ _ hne => absurd rfl hne

theorem Kept.exec (h : f.Kept) {moves : List Move} (hc : Follows cfg f moves) :
    (f.exec cfg moves).Kept := by
  induction moves generalizing f with
  | nil => exact h
  | cons move rest ih => exact ih (h.step hc.1) hc.2

/-- **確かめた Secret を他人のものにされなければ、持ち物でない Secret は書き換えられない。**
いくつの reconcile と client がどう割り込んでも、書き込みを控えた reconcile の Secret を、ほかの者がその CR の
持ち物でないものにしない経過では、reconcile の一歩は、その時 API server にあって CR の持ち物でない Secret を
変えない。 -/
theorem unowned_never_overwritten (cfg : Config) {f₀ : Fleet} (hidle : ∀ name, f₀.tasks name = none)
    {moves : List Move} (hc : Follows cfg f₀ moves) {name : String} {task : Task}
    (htask : (f₀.exec cfg moves).tasks name = some task) {m : String} {s : StoredSecret}
    (hs : (f₀.exec cfg moves).world.secrets m = some s)
    (hforeign : ownedBy (s.read task.cr.nameSpace m) task.cr = false) :
    ((f₀.exec cfg moves).step cfg (.advance name)).world.secrets m = some s := by
  have hstart : f₀.Kept := by
    intro name task ht
    rw [hidle name] at ht
    cases ht
  exact (((hstart.exec hc).advance name).1 task htask m s hs hforeign).trans hs

/-- ほかに走る reconcile が無ければ、控えるべき相手もいない。 -/
theorem follows_alone (hothers : ∀ other, other ≠ name → f.tasks other = none) {moves : List Move}
    (hm : ∀ m ∈ moves, m = .reconcile name ∨ m = .advance name) : Follows cfg f moves := by
  induction moves generalizing f with
  | nil => trivial
  | cons move rest ih =>
    have hput : ∀ s other, other ≠ name → (f.put name s).tasks other = none :=
      fun s other hne => (Function.update_of_ne hne _ _).trans (hothers other hne)
    have hrest := fun m hmem => hm m (List.mem_cons_of_mem _ hmem)
    rcases hm move List.mem_cons_self with rfl | rfl
    · refine ⟨trivial, ih ?_ hrest⟩
      unfold Fleet.step
      dsimp only
      split
      · exact hput _
      · exact hothers
    · exact ⟨fun other m hne _ => not_disturbs_of_none (hothers other hne), ih (hput _) hrest⟩

/-- 誰かが作った Secret。 -/
def foreignSecret : StoredSecret := ⟨.empty, .empty, .empty, "Opaque", .empty⟩

/-- 誰かの Secret があるところで、CR の reconcile を始める。 -/
def sampleFleet : Fleet :=
  ⟨{ sampleWorld with secrets := Function.update sampleWorld.secrets "a" (some foreignSecret) },
    fun _ => none⟩

theorem unowned_never_overwritten_sample :
    ((sampleFleet.exec sampleConfig (.reconcile "app" :: List.replicate 3 (.advance "app"))).step
      sampleConfig (.advance "app")).world.secrets "a" = some foreignSecret := by
  have htask : ((sampleFleet.exec sampleConfig
      (.reconcile "app" :: List.replicate 3 (.advance "app"))).tasks "app").map (·.cr) =
        some sampleCr := by decide +kernel
  obtain ⟨task, htask, hcr⟩ := Option.map_eq_some_iff.mp htask
  have hmoves : ∀ m ∈ (Move.reconcile "app" :: List.replicate 3 (Move.advance "app")),
      m = .reconcile "app" ∨ m = .advance "app" := by
    intro m hm
    exact (List.mem_cons.mp hm).imp id List.eq_of_mem_replicate
  refine unowned_never_overwritten sampleConfig (fun _ => rfl)
    (follows_alone (fun _ _ => rfl) hmoves) htask (by decide +kernel) ?_
  rw [hcr]
  decide +kernel

/-- 同じ名前の Secret を作る、もう一つの CR。 -/
def sampleRival : BunkerSecret := { sampleCr with name := "rival", uid := some "v" }

def rivalFleet : Fleet :=
  ⟨{ sampleWorld with crs := Function.update sampleWorld.crs "rival" (some sampleRival) },
    fun _ => none⟩

/-- どちらの CR も、Secret が無いことを確かめてから書く。 -/
def race : List Move :=
  .reconcile "app" :: .reconcile "rival" :: List.replicate 3 (.advance "app") ++
    List.replicate 3 (.advance "rival") ++ [.advance "app"]

/-- 先に書いた CR の Secret は、後から書く CR のものになる。 -/
theorem rival_takes_over :
    ((rivalFleet.exec sampleConfig race).tasks "rival").map (·.cr) = some sampleRival ∧
      ((rivalFleet.exec sampleConfig race).world.secrets "a").any (fun s =>
        ownedBy (s.read "prod" "a") sampleCr && !ownedBy (s.read "prod" "a") sampleRival) = true ∧
      (((rivalFleet.exec sampleConfig race).step sampleConfig (.advance "rival")).world.secrets
        "a").any (fun s => !ownedBy (s.read "prod" "a") sampleCr &&
          ownedBy (s.read "prod" "a") sampleRival) = true := by
  decide +kernel

end Fleet

end Operator

end SecretBunker
