import SecretBunker.Operator.Bridge
import SecretBunker.Operator.History
import SecretBunker.Replica.Events

/-!
# 促しの取りこぼしが無いこと

replica の task が mirror を書き換え、event を流し、bridge がそれを受け取って CR の reconcile を
促す。三つは別々に書かれているので、つなげて考える。

1. 書き込みの event には、中身の変わった group の名前が必ず出る（`Replica.announcing_moves`）。
2. `render` の読む group は `referencedGroups` に尽きる。読む group の中身が同じなら、結果は
   同じか、どちらかが `NotYetSynced` である（`render_agrees`）。wrap だけが入れ替わったときは、前後の
   鍵が同じ暗号文を別々の平文に開かないことが要る（`OpensAlike`）。AEAD の法則だけからは出ない。
3. 流した event は、受け取られるか、取りこぼしの知らせになる。どちらでも、その group を読む CR は
   促される（`Relay.Pending.step`）。
-/

namespace SecretBunker

open Broadcast Interleaving Ordered Relational Store

namespace Operator

/-! ## 読み元 -/

/-- まだ読めない、という結果。 -/
def NotYetSynced {α : Type} : Except RenderError α → Prop
  | .error (.notYetSynced ..) => True
  | _ => False

/-- 同じか、どちらかがまだ読めない。 -/
def Agrees {α : Type} (x y : Except RenderError α) : Prop := x = y ∨ NotYetSynced x ∨ NotYetSynced y

theorem Agrees.refl {α : Type} (x : Except RenderError α) : Agrees x x := Or.inl rfl

theorem NotYetSynced.bind {α β : Type} {x : Except RenderError α} (h : NotYetSynced x)
    (f : α → Except RenderError β) : NotYetSynced (x >>= f) := by
  cases x with
  | ok a => exact h.elim
  | error e =>
    cases e with
    | notYetSynced => trivial
    | _ => exact h.elim

theorem Agrees.bind {α β : Type} {x y : Except RenderError α} {f g : α → Except RenderError β}
    (h : Agrees x y) (hf : ∀ a, Agrees (f a) (g a)) : Agrees (x >>= f) (y >>= g) := by
  rcases h with rfl | h | h
  · cases x with
    | ok a => exact hf a
    | error e => exact .refl _
  · exact Or.inr (Or.inl (h.bind f))
  · exact Or.inr (Or.inr (h.bind g))

theorem Agrees.foldlM {α β : Type} {f g : β → α → Except RenderError β} {l : List α}
    (h : ∀ a ∈ l, ∀ b, Agrees (f b a) (g b a)) (b : β) : Agrees (l.foldlM f b) (l.foldlM g b) := by
  induction l generalizing b with
  | nil => exact .refl _
  | cons a rest ih =>
    rw [List.foldlM_cons, List.foldlM_cons]
    exact (h a List.mem_cons_self b).bind (ih fun x hx => h x (List.mem_cons_of_mem _ hx))

section Source

variable {prim : Primitives} {own : String} {key : AgeIdentity} {mirror mirror' : Db}
  {group name : String}

variable (prim own key) in
/-- 手元の wrap が包む DEK で、secret の現在の行が `value` に開く。 -/
def Opens (mirror : Db) (group name : String) (row : SecretDataRow) (value : Bytes) : Prop :=
  ∃ gid wrapped dek, groupId mirror group = some gid ∧
    secretDataCurrent mirror gid name = some row ∧
    dekWrap mirror gid row.dekVersion own = some wrapped ∧ unwrapDek prim wrapped key = some dek ∧
    decryptSecret prim dek (secretAad group name row.version row.dekVersion) row.nonce
      row.ciphertext = some value

variable (prim own key) in
/-- 行の変わらない secret は、前後どちらの wrap の DEK で開けても、同じ平文に開く。 -/
def OpensAlike (mirror mirror' : Db) (group : String) : Prop :=
  ∀ name row value value', Opens prim own key mirror group name row value →
    Opens prim own key mirror' group name row value' → value = value'

variable (prim own key) in
/-- group の中身は前と同じで、開くものは同じに開く。 -/
def Unmoved (mirror mirror' : Db) (group : String) : Prop :=
  Replica.holdings mirror' group = Replica.holdings mirror group ∧
    OpensAlike prim own key mirror mirror' group

theorem groupExists_eq (mirror : Db) (group : String) :
    groupExists mirror group = (groupId mirror group).isSome := by
  rw [Bool.eq_iff_iff, groupExists, List.any_eq_true, Option.isSome_iff_ne_none, ← Replica.mem_groups]
  exact ⟨fun ⟨x, hx, he⟩ => beq_iff_eq.mp he ▸ hx, fun h => ⟨group, h, beq_self_eq_true group⟩⟩

theorem holdings_eq_none : Replica.holdings mirror group = none ↔ groupId mirror group = none :=
  Option.map_eq_none_iff

theorem holdings_eq_some {slots : String → Option Nat × Option SecretDataRow}
    (h : Replica.holdings mirror group = some slots) :
    ∃ gid, groupId mirror group = some gid ∧ ∀ n, slot mirror gid n = slots n := by
  obtain ⟨gid, hg, rfl⟩ := Option.map_eq_some_iff.mp h
  exact ⟨gid, hg, fun n => (slotOf_eq hg).symm⟩

/-- 一覧は group の中身だけで決まる。 -/
theorem list_congr (h : Replica.holdings mirror' group = Replica.holdings mirror group) :
    (replicaSource prim own key mirror').list group =
      (replicaSource prim own key mirror).list group := by
  unfold replicaSource Replica.list
  dsimp only
  rw [groupExists_eq, groupExists_eq]
  cases hc : Replica.holdings mirror group with
  | none => rw [holdings_eq_none.mp hc, holdings_eq_none.mp (h.trans hc)]
  | some slots =>
    obtain ⟨gid, hg, hslots⟩ := holdings_eq_some hc
    obtain ⟨gid', hg', hslots'⟩ := holdings_eq_some (h.trans hc)
    have hlist : listSecrets mirror' gid' = listSecrets mirror gid := by
      refine sortOn_congr (listSecrets_nodup mirror' gid') (listSecrets_nodup mirror gid) fun e => ?_
      refine mem_listSecrets.trans (Iff.trans ?_ mem_listSecrets.symm)
      rw [(secretCurrent_of_slot ((hslots' e.1).trans (hslots e.1).symm)).1]
    rw [hg, hg']
    dsimp only
    rw [hlist]
    rfl

theorem lookup_absent (h : Replica.holdings mirror group = none) :
    lookup (replicaSource prim own key mirror) group name = .error (.missingGroup group) := by
  have hg := holdings_eq_none.mp h
  simp only [lookup, replicaSource, Replica.get, groupExists_eq, hg]
  rfl

/-- 手元の一覧に無い secret。 -/
theorem lookup_missing {slots : String → Option Nat × Option SecretDataRow}
    (h : Replica.holdings mirror group = some slots) (hn : (slots name).1 = none) :
    lookup (replicaSource prim own key mirror) group name = .error (.missingSecret group name) := by
  obtain ⟨gid, hg, hslots⟩ := holdings_eq_some h
  have hversion : secretVersion mirror gid name = none := (congrArg Prod.fst (hslots name)).trans hn
  have hcurrent : secretCurrent mirror gid name = none := by
    unfold secretCurrent
    rw [Option.map_eq_none_iff.mp hversion]
    rfl
  have hlist : (listSecrets mirror gid).any (fun n => n.1 == name) = false := by
    refine List.any_eq_false.mpr fun e he hname => ?_
    rw [mem_listSecrets, beq_iff_eq.mp hname, hversion] at he
    cases he
  simp only [lookup, replicaSource, Replica.get, Replica.list, groupExists_eq, hg, hcurrent, hlist]
  rfl

variable (prim own key) in
/-- 手元の一覧にある secret は、まだ読めないか、行の暗号文を開いて読める。 -/
theorem lookup_listed {slots : String → Option Nat × Option SecretDataRow} {v : Nat}
    (h : Replica.holdings mirror group = some slots) (hn : (slots name).1 = some v) :
    NotYetSynced (lookup (replicaSource prim own key mirror) group name) ∨
      ∃ row value, (slots name).2 = some row ∧ Opens prim own key mirror group name row value ∧
        lookup (replicaSource prim own key mirror) group name = .ok value := by
  obtain ⟨gid, hg, hslots⟩ := holdings_eq_some h
  have hlist : (listSecrets mirror gid).any (fun n => n.1 == name) = true := by
    refine List.any_eq_true.mpr ⟨(name, v), mem_listSecrets.mpr ?_, beq_self_eq_true name⟩
    exact (congrArg Prod.fst (hslots name)).trans hn
  cases hget : Replica.get prim own key mirror group name with
  | error e =>
    refine Or.inl ?_
    simp only [lookup, replicaSource, Replica.list, groupExists_eq, hg, hget, hlist]
    trivial
  | ok value =>
    refine Or.inr ?_
    have hok : lookup (replicaSource prim own key mirror) group name = .ok value := by
      simp only [lookup, replicaSource, hget]
      rfl
    have hrow : (slots name).2 = secretDataCurrent mirror gid name :=
      (congrArg Prod.snd (hslots name)).symm
    simp only [Replica.get, hg, secretCurrent_eq] at hget
    cases hdata : secretDataCurrent mirror gid name with
    | none => simp [hdata] at hget
    | some row =>
      simp only [hdata, Option.map_some] at hget
      split at hget
      · cases hget
      · next wrapped hwrap =>
        split at hget
        · cases hget
        · next hdec =>
          cases hget
          obtain ⟨dek, hunwrap, hdec⟩ := Option.bind_eq_some_iff.mp hdec
          exact ⟨row, _, hrow.trans hdata, ⟨gid, wrapped, dek, hg, hdata, hwrap, hunwrap, hdec⟩, hok⟩

/-- **group の中身が同じなら、読めるものは同じに読める。** wrap は入れ替わっていてよい。 -/
theorem lookup_agrees (hunmoved : Unmoved prim own key mirror mirror' group) (name : String) :
    Agrees (lookup (replicaSource prim own key mirror) group name)
      (lookup (replicaSource prim own key mirror') group name) := by
  obtain ⟨h, hopen⟩ := hunmoved
  cases hc : Replica.holdings mirror group with
  | none =>
    rw [lookup_absent hc, lookup_absent (h.trans hc)]
    exact .refl _
  | some slots =>
    cases hn : (slots name).1 with
    | none =>
      rw [lookup_missing hc hn, lookup_missing (h.trans hc) hn]
      exact .refl _
    | some v =>
      rcases lookup_listed prim own key hc hn with
        hunsynced | ⟨row, value, hrow, hdec, hok⟩
      · exact Or.inr (Or.inl hunsynced)
      · rcases lookup_listed prim own key (h.trans hc) hn with
          hunsynced | ⟨row', value', hrow', hdec', hok'⟩
        · exact Or.inr (Or.inr hunsynced)
        · obtain rfl : row = row' := Option.some.inj (hrow.symm.trans hrow')
          obtain rfl := hopen name row value value' hdec hdec'
          exact Or.inl (hok.trans hok'.symm)

/-! ## render -/

variable (formats : Formats)

theorem renderFrom_agrees (r : Rendered) {entry : DataFromEntry}
    (h : ∀ group, (match entry with | .group name _ => name | .extract group _ => group) = group →
      Unmoved prim own key mirror mirror' group) :
    Agrees (renderFrom formats (replicaSource prim own key mirror) r entry)
      (renderFrom formats (replicaSource prim own key mirror') r entry) := by
  cases entry with
  | group group rewrite =>
    have hg := h group rfl
    simp only [renderFrom, list_congr hg.1]
    refine (Agrees.refl _).bind fun names => Agrees.foldlM (fun name _ r => ?_) r
    exact (lookup_agrees hg name).bind fun value => .refl _
  | extract group name =>
    exact (lookup_agrees (h group rfl) name).bind fun value => .refl _

theorem renderData_agrees (r : Rendered) {d : DataEntry}
    (h : Unmoved prim own key mirror mirror' d.remoteRef.group) :
    Agrees (renderData formats (replicaSource prim own key mirror) r d)
      (renderData formats (replicaSource prim own key mirror') r d) :=
  (lookup_agrees h d.remoteRef.name).bind fun _ => .refl _

/-- **読む group の中身が同じなら、`render` の結果は同じか、どちらかが `NotYetSynced` である。** -/
theorem render_agrees {cr : BunkerSecret}
    (h : ∀ group ∈ cr.referencedGroups, Unmoved prim own key mirror mirror' group) :
    Agrees (render formats (replicaSource prim own key mirror) cr.spec)
      (render formats (replicaSource prim own key mirror') cr.spec) := by
  have hdata : ∀ d ∈ cr.spec.data, d.remoteRef.group ∈ cr.referencedGroups :=
    fun d hd => List.mem_append_left _ (List.mem_map_of_mem hd)
  have hfrom : ∀ entry ∈ cr.spec.dataFrom, ∀ group,
      (match entry with | .group name _ => name | .extract group _ => group) = group →
      group ∈ cr.referencedGroups :=
    fun entry he group hg => List.mem_append_right _ (List.mem_map.mpr ⟨entry, he, hg⟩)
  refine (Agrees.foldlM (fun entry he r => ?_) _).bind fun r => ?_
  · exact renderFrom_agrees formats r fun group hg => h group (hfrom entry he group hg)
  · refine (Agrees.foldlM (fun d hd r => ?_) r).bind fun r => .refl _
    exact renderData_agrees formats r (h _ (hdata d hd))

end Source

/-! ## task と bridge -/

/-- replica の task と bridge。task の流した event は、そのまま bridge の channel に入る。 -/
structure Relay where
  session : Replica.Session Replica.Replies
  bridge : Bridge

namespace Relay

/-- task の一歩、または bridge の一回り。 -/
inductive Act where
  | sync (act : Replica.Act)
  | recv (now : Nat) (crs : List BunkerSecret)
  | tick (now : Nat) (crs : List BunkerSecret)

def start (l : Link Replica.Replies) (now : Nat) : Relay := ⟨⟨l, .down⟩, .new now⟩

variable (threshold : Nat) (prim : Primitives) (own : String)

/-- task の一歩で流れた event を channel に入れる。 -/
def send (r : Relay) (session : Replica.Session Replica.Replies) : Relay :=
  ⟨session, r.bridge.exec threshold
    ((session.link.events.drop r.session.link.events.length).map .emit)⟩

def step (r : Relay) : Act → Relay
  | .sync act => r.send threshold (r.session.step Replica.scripted prim own act)
  | .recv now crs => { r with bridge := r.bridge.step threshold (.recv now crs) }
  | .tick now crs => { r with bridge := r.bridge.step threshold (.tick now crs) }

def exec (r : Relay) (acts : List Act) : Relay := acts.foldl (step threshold prim own) r

variable {threshold prim own} {r : Relay}

/-- task の一歩は、流した event を channel に足すほかは bridge を動かさない。 -/
theorem step_sync {owed : List ReplicaEvent} (h : r.session.Announcing owed) (act : Replica.Act) :
    ∃ emitted owed', r.session.Relays owed (r.step threshold prim own (.sync act)).session
        emitted owed' ∧
      (r.step threshold prim own (.sync act)).bridge =
        { r.bridge with events := r.bridge.events.sendAll replicaEventsCapacity emitted } := by
  obtain ⟨emitted, owed', hrelays⟩ :=
    Replica.announcing_moves (Replica.Session.moves_step r.session act) h
  refine ⟨emitted, owed', hrelays, ?_⟩
  show (r.send threshold _).bridge = _
  unfold send
  dsimp only
  rw [hrelays.events, List.drop_left, Bridge.exec_emit]

theorem announcing_step {owed : List ReplicaEvent} (h : r.session.Announcing owed) (a : Act) :
    ∃ owed', (r.step threshold prim own a).session.Announcing owed' := by
  cases a with
  | sync act =>
    obtain ⟨emitted, owed', hrelays, -⟩ := step_sync h act
    exact ⟨owed', hrelays.announcing⟩
  | recv now crs => exact ⟨owed, h⟩
  | tick now crs => exact ⟨owed, h⟩

theorem announcing_exec {owed : List ReplicaEvent} (h : r.session.Announcing owed)
    (acts : List Act) : ∃ owed', (r.exec threshold prim own acts).session.Announcing owed' := by
  induction acts generalizing r owed with
  | nil => exact ⟨owed, h⟩
  | cons a rest ih =>
    obtain ⟨owed', h'⟩ := announcing_step h a
    exact ih h'

/-- `base` の後に `cr` が促されたか、`event` がまだ途中にある。途中とは、task がこれから流すか、
channel が失っていないことである。 -/
def Pending (cr : BunkerSecret) (event : ReplicaEvent) (base : List ObjectRef) (r : Relay) : Prop :=
  ∃ sent owed, r.bridge.triggered = base ++ sent ∧ r.session.Announcing owed ∧
    (objRef cr ∈ sent ∨ event ∈ owed ∨ r.bridge.events.Holds event)

variable {cr : BunkerSecret} {event : ReplicaEvent} {base : List ObjectRef}

/-- bridge が受け取ったものに、`cr` は促される。 -/
def Wakes (cr : BunkerSecret) : Option ReplicaEvent → Prop
  | none => True
  | some e => ∃ g ∈ cr.referencedGroups, e.group = some g

/-- 起こすべき event を受ければ、起こす。 -/
theorem receive_triggered (b : Bridge) (now : Nat) {crs : List BunkerSecret} (hcr : cr ∈ crs)
    (got : Option ReplicaEvent) : ∃ sent, (b.receive now crs got).triggered = b.triggered ++ sent ∧
      (Wakes cr got → objRef cr ∈ sent) := by
  have hdata : ∀ g, ∃ sent, (b.trigger (crs.filter fun cr => g ∈ cr.referencedGroups)).triggered =
      b.triggered ++ sent ∧ ((∃ g' ∈ cr.referencedGroups, some g = some g') → objRef cr ∈ sent) := by
    refine fun g => ⟨_, rfl, ?_⟩
    rintro ⟨g', hg, he⟩
    cases he
    exact List.mem_map_of_mem (List.mem_filter.mpr ⟨hcr, decide_eq_true hg⟩)
  cases got with
  | none => exact ⟨_, rfl, fun _ => List.mem_map_of_mem hcr⟩
  | some e =>
    cases e with
    | secretChanged g name version => exact hdata g
    | secretDeleted g name => exact hdata g
    | groupAdded g => exact hdata g
    | groupRemoved g => exact hdata g
    | connected => exact ⟨[], (List.append_nil _).symm, fun ⟨_, _, he⟩ => nomatch he⟩
    | disconnected => exact ⟨[], (List.append_nil _).symm, fun ⟨_, _, he⟩ => nomatch he⟩

theorem onTick_triggered (b : Bridge) (now : Nat) (crs : List BunkerSecret) :
    ∃ sent, (b.onTick threshold now crs).triggered = b.triggered ++ sent := by
  unfold Bridge.onTick
  dsimp only
  split
  · exact ⟨[], (List.append_nil _).symm⟩
  · exact ⟨_, rfl⟩

/-- **一歩で event が失われることはない。** 流れれば channel に入り、channel から出れば `cr` が促される。 -/
theorem Pending.step (hwakes : Wakes cr (some event)) {a : Act}
    (hlister : ∀ now crs, a = .recv now crs → cr ∈ crs) (h : Pending cr event base r) :
    Pending cr event base (r.step threshold prim own a) := by
  obtain ⟨sent, owed, htriggered, hannounce, hstate⟩ := h
  cases a with
  | sync act =>
    obtain ⟨emitted, owed', hrelays, hbridge⟩ := @step_sync threshold prim own r owed hannounce act
    refine ⟨sent, owed', by rw [hbridge, htriggered], hrelays.announcing, ?_⟩
    rcases hstate with hsent | howed | hholds
    · exact Or.inl hsent
    · rcases List.mem_append.mp (hrelays.kept event howed) with hnew | hlater
      · exact Or.inr (Or.inr (by rw [hbridge]; exact Receiver.Holds.sendAll _ (Or.inr hnew)))
      · exact Or.inr (Or.inl hlater)
    · exact Or.inr (Or.inr (by rw [hbridge]; exact Receiver.Holds.sendAll _ (Or.inl hholds)))
  | recv now crs =>
    cases hrecv : r.bridge.events.recv with
    | none =>
      have hidle : r.bridge.step threshold (.recv now crs) = r.bridge := by
        unfold Bridge.step
        dsimp only
        rw [hrecv]
      refine ⟨sent, owed, ?_, hannounce, ?_⟩
      · show (r.bridge.step threshold (.recv now crs)).triggered = _
        rw [hidle, htriggered]
      · show _ ∨ _ ∨ (r.bridge.step threshold (.recv now crs)).events.Holds event
        rwa [hidle]
    | some p =>
      obtain ⟨got, events⟩ := p
      have hstep : r.bridge.step threshold (.recv now crs) =
          { r.bridge with events }.receive now crs got := Bridge.step_recv hrecv now crs
      obtain ⟨more, hmore, hwoken⟩ := receive_triggered { r.bridge with events } now
        (hlister now crs rfl) got
      refine ⟨sent ++ more, owed, ?_, hannounce, ?_⟩
      · show (r.bridge.step threshold (.recv now crs)).triggered = _
        rw [hstep, hmore, htriggered, List.append_assoc]
      · rcases hstate with hsent | howed | hholds
        · exact Or.inl (List.mem_append_left _ hsent)
        · exact Or.inr (Or.inl howed)
        · rcases hholds.recv hrecv with rfl | rfl | hkept
          · exact Or.inl (List.mem_append_right _ (hwoken trivial))
          · exact Or.inl (List.mem_append_right _ (hwoken hwakes))
          · refine Or.inr (Or.inr ?_)
            show (r.bridge.step threshold (.recv now crs)).events.Holds event
            rwa [hstep, Bridge.receive_events]
  | tick now crs =>
    obtain ⟨more, hmore⟩ := @onTick_triggered threshold r.bridge now crs
    refine ⟨sent ++ more, owed, ?_, hannounce, ?_⟩
    · show (r.bridge.onTick threshold now crs).triggered = _
      rw [hmore, htriggered, List.append_assoc]
    · rcases hstate with hsent | howed | hholds
      · exact Or.inl (List.mem_append_left _ hsent)
      · exact Or.inr (Or.inl howed)
      · refine Or.inr (Or.inr ?_)
        show (r.bridge.onTick threshold now crs).events.Holds event
        rwa [(Bridge.onTick_events r.bridge now crs).1]

theorem Pending.exec (hwakes : Wakes cr (some event)) {acts : List Act}
    (hlister : ∀ now crs, .recv now crs ∈ acts → cr ∈ crs) (h : Pending cr event base r) :
    Pending cr event base (r.exec threshold prim own acts) := by
  induction acts generalizing r with
  | nil => exact h
  | cons a rest ih =>
    refine ih (fun now crs hmem => hlister now crs (List.mem_cons_of_mem _ hmem)) ?_
    exact h.step hwakes fun now crs he => hlister now crs (he ▸ List.mem_cons_self)

/-- **促しの取りこぼしは無い。** 実行のどの時点の task の一歩でも、それで `render` の結果が変わり、
前後のどちらも `NotYetSynced` でないなら、task がその event を流し終え、bridge が channel を捌いた
ときには、一歩の後に `cr` が促されている。channel が途中で何度溢れてもよい。ただし、読む group の
行の変わらない secret は、前後の wrap の DEK で別々の平文には開かないとする。 -/
theorem no_wakeup_lost (formats : Formats) {prim : Primitives} (own : String)
    (key : AgeIdentity) (threshold now : Nat) (l : Link Replica.Replies) (before after : List Act)
    (act : Replica.Act) (cr : BunkerSecret) :
    let r := (start l now).exec threshold prim own before
    let r' := r.step threshold prim own (.sync act)
    let r'' := r'.exec threshold prim own after
    let result := fun s : Relay =>
      render formats (replicaSource prim own key s.session.link.mirror) cr.spec
    (∀ group ∈ cr.referencedGroups,
      OpensAlike prim own key r.session.link.mirror r'.session.link.mirror group) →
    result r' ≠ result r → ¬NotYetSynced (result r) → ¬NotYetSynced (result r') →
    (∀ now crs, .recv now crs ∈ after → cr ∈ crs) →
    r''.session.advance.link.events = r''.session.link.events → r''.bridge.events.Drained →
    ∃ sent, r''.bridge.triggered = r'.bridge.triggered ++ sent ∧ objRef cr ∈ sent := by
  intro r r' r'' result hopen hchanged hbefore hafter hlister hidle hdrained
  -- 読む group のどれかの中身が変わっている
  have hgroup : ∃ group ∈ cr.referencedGroups, Replica.holdings r'.session.link.mirror group ≠
      Replica.holdings r.session.link.mirror group := by
    by_contra hnone
    push Not at hnone
    have hagrees : Agrees (result r) (result r') :=
      render_agrees formats fun group href => ⟨hnone group href, hopen group href⟩
    rcases hagrees with heq | hun | hun
    · exact hchanged heq.symm
    · exact hbefore hun
    · exact hafter hun
  obtain ⟨group, href, hholdings⟩ := hgroup
  obtain ⟨owed, hannounce⟩ := announcing_exec (show (start l now).session.Announcing [] from rfl) before
  obtain ⟨emitted, owed', hrelays, -⟩ := step_sync hannounce act
  obtain ⟨event, howed, hevent⟩ := hrelays.named group hholdings
  have hpending : Pending cr event r'.bridge.triggered r' :=
    ⟨[], owed', (List.append_nil _).symm, hrelays.announcing, Or.inr (Or.inl howed)⟩
  have hend : Pending cr event r'.bridge.triggered r'' :=
    hpending.exec ⟨group, href, hevent⟩ hlister
  obtain ⟨sent, owed'', htriggered, hannounce'', hstate⟩ := hend
  rcases hstate with hsent | howed'' | hholds
  · exact ⟨sent, htriggered, hsent⟩
  · rw [hannounce''.owes.eq_nil hidle] at howed''
    cases howed''
  · exact absurd hholds hdrained.not_holds

/-- group `g` をまるごと読む CR。 -/
def wakeCr : BunkerSecret :=
  ⟨"prod", "app", some "u", 1, false, { dataFrom := [.group "g" []] }, none⟩

/-- 空の mirror に group `g` が届いて反映されるまで。最後の一歩が反映である。 -/
def wakeStart : List Act := [.sync .connect, .sync (.receive (.group "g" [] [])),
  .sync (.receive .manifestDone), .sync .advance]

/-- 反映の event が流れ、bridge が `Connected` と合わせて二つ受け取る。 -/
def wakeEnd : List Act := [.sync .advance, .recv 0 [wakeCr], .recv 0 [wakeCr]]

def wakeLink : Link Replica.Replies := ⟨[], .empty, 0, [], false, none⟩

/-- 反映の前後の、`wakeCr` の render の結果。 -/
theorem rendered_wake :
    render plainFormats (replicaSource plain "r" ⟨"k"⟩
      ((start wakeLink 0).exec 300 plain "r" wakeStart).session.link.mirror) wakeCr.spec =
        .error (.missingGroup "g") ∧
    render plainFormats (replicaSource plain "r" ⟨"k"⟩ (((start wakeLink 0).exec 300 plain "r"
      wakeStart).step 300 plain "r" (.sync .advance)).session.link.mirror) wakeCr.spec =
        .ok .empty := by
  decide +kernel

theorem no_wakeup_lost_sample : ∃ sent, ((((start wakeLink 0).exec 300 plain "r" wakeStart).step
      300 plain "r" (.sync .advance)).exec 300 plain "r" wakeEnd).bridge.triggered =
    (((start wakeLink 0).exec 300 plain "r" wakeStart).step 300 plain "r"
      (.sync .advance)).bridge.triggered ++ sent ∧ objRef wakeCr ∈ sent := by
  obtain ⟨hbefore, hafter⟩ := rendered_wake
  refine no_wakeup_lost plainFormats "r" ⟨"k"⟩ 300 0 wakeLink wakeStart wakeEnd .advance wakeCr
    ?_ ?_ ?_ ?_ ?_ ?_ ?_
  · rintro group - name row value value' ⟨_, _, _, -, -, -, -, hopen⟩ ⟨_, _, _, -, -, -, -, hopen'⟩
    exact Option.some.inj (hopen.symm.trans hopen')
  · dsimp only
    rw [hbefore, hafter]
    exact nofun
  · dsimp only
    rw [hbefore]
    exact id
  · dsimp only
    rw [hafter]
    exact id
  · intro now crs hmem
    simp only [wakeEnd, List.mem_cons, reduceCtorEq, Act.recv.injEq, List.not_mem_nil, or_false,
      false_or, or_self] at hmem
    rw [hmem.2]
    exact List.mem_singleton_self _
  · decide +kernel
  · exact ⟨by decide +kernel, by decide +kernel⟩

/-! ### DEK に縛られない AEAD -/

/-- DEK の先頭の byte を足す AEAD。どの DEK でも開くので、開いた平文は DEK で変わる。 -/
def shifting : Primitives :=
  { plain with
    aeadEncrypt := fun dek _ _ m => m.map (· + dek.bytes.headD 0)
    aeadDecrypt := fun dek _ _ c => some (c.map (· - dek.bytes.headD 0)) }

theorem shifting_lawful : shifting.Lawful where
  age_decrypt_own := plain_lawful.age_decrypt_own
  age_decrypt_other := plain_lawful.age_decrypt_other
  parse_public := plain_lawful.parse_public
  parse_parsed := plain_lawful.parse_parsed
  endpoint_text := plain_lawful.endpoint_text
  aead_roundtrip dek _ _ m := by
    simp [shifting, Function.comp_def]

/-- `g` の一覧。`n` の行はいつも同じで、wrap の中の DEK だけが `b` で変わる。 -/
def rewrapListing (b : UInt8) : List SyncMessage :=
  [.group "g" [⟨"r", "r", permRead⟩]
      [⟨1, wrapDek shifting [] ⟨b :: List.replicate 31 0, rfl⟩ ⟨"k"⟩⟩],
    .groupSecrets "g" [⟨"n", 1, 1, List.replicate 12 0⟩]]

def rewrapLink : Link Replica.Replies :=
  ⟨[[.secretData ⟨⟨1, 1, List.replicate 12 0, [7], 0, "r"⟩, "n"⟩, .fetchDone],
    rewrapListing 1 ++ [.fetchDone]], .empty, 0, [], false, none⟩

/-- `g` が揃って bridge がその event を捌き、次の知らせで一覧を取り寄せ直したところまで。 -/
def rewrapStart : List Act :=
  [.sync .connect] ++ (rewrapListing 0).map (fun m => .sync (.receive m)) ++
    [.sync (.receive .manifestDone)] ++
    List.replicate 20 (.sync .advance) ++ List.replicate 3 (.recv 0 [wakeCr]) ++
    [.sync (.receive (.changed "g")), .sync .advance, .sync .advance]

/-- AEAD の法則を満たしても、wrap だけが入れ替わって値が変わるときには、event は流れず、`cr` は促されない。 -/
theorem rewrap_changes_silently :
    let r := (start rewrapLink 0).exec 300 shifting "r" rewrapStart
    let r' := r.step 300 shifting "r" (.sync .advance)
    let r'' := r'.exec 300 shifting "r" [.recv 0 [wakeCr]]
    let result := fun s : Relay =>
      render plainFormats (replicaSource shifting "r" ⟨"k"⟩ s.session.link.mirror) wakeCr.spec
    shifting.Lawful ∧
      (result r' ≠ result r ∧ ¬NotYetSynced (result r) ∧ ¬NotYetSynced (result r')) ∧
      r''.session.advance.link.events = r''.session.link.events ∧ r''.bridge.events.Drained ∧
      ¬∃ sent, r''.bridge.triggered = r'.bridge.triggered ++ sent ∧ objRef wakeCr ∈ sent := by
  intro r r' r'' result
  have hbefore : result r = .ok (SortedMap.empty.insert "n" [7]) := by decide +kernel
  have hafter : result r' = .ok (SortedMap.empty.insert "n" [6]) := by decide +kernel
  have hquiet : r''.bridge.triggered = r'.bridge.triggered := by decide +kernel
  refine ⟨shifting_lawful, ⟨?_, ?_, ?_⟩, by decide +kernel, ⟨by decide +kernel, by decide +kernel⟩, ?_⟩
  · rw [hbefore, hafter]
    decide
  · rw [hbefore]
    exact id
  · rw [hafter]
    exact id
  · rintro ⟨sent, hsent, hmem⟩
    rw [List.self_eq_append_right.mp (hquiet.symm.trans hsent)] at hmem
    cases hmem

end Relay

end Operator

end SecretBunker
