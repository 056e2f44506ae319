import SecretBunker.Crypto.Bytes
import SecretBunker.Crypto.Plain
import SecretBunker.Lib.HashChain
import SecretBunker.Store.Mutate

/-!
# audit の鎖

`Store::verify_audit_chain` は、audit の行を `seq` の順に読み、前の hash と行の hash を確かめる。
行の中身は何でもよく、database を直に書き換えた表もここで扱う。

append だけで出来た表は必ず通り、通った二つの表は、最後の hash が同じなら行の数も中身も同じである。
hash に渡す列は、固定長の前の hash、固定長の時刻、長さを前に置いた四つの欄なので、列から中身が戻る。
-/

namespace SecretBunker

open Delimited HashChain

namespace Store

/-- audit の一行の中身。 -/
structure AuditEntry where
  ts : Int
  endpointId : String
  op : String
  target : String
  outcome : String
  deriving DecidableEq

end Store

/-- 行の、hash のほかの欄。 -/
def AuditRow.entry (row : AuditRow) : Store.AuditEntry :=
  ⟨row.ts, row.endpointId, row.op, row.target, row.outcome⟩

namespace Store

/-- `verify_audit_chain` の答え。`head` は最後の `(seq, hash)` である。 -/
inductive AuditVerification where
  | valid (entries : Nat) (head : Option (Int × Bytes))
  | broken (seq : Int)
  deriving DecidableEq

variable (prim : Primitives)

/-- 行を順に確かめる loop。`entries`、`prev`、`head` を持ち回る。 -/
def verifyRows : List (Int × AuditRow) → Nat → Bytes → Option (Int × Bytes) → AuditVerification
  | [], entries, _, head => .valid entries head
  | (seq, row) :: rest, entries, prev, _ =>
    if row.prevHash ≠ prev then .broken seq
    else if auditHash prim prev row.ts row.endpointId row.op row.target row.outcome ≠ row.hash then
      .broken seq
    else verifyRows rest (entries + 1) row.hash (some (seq, row.hash))

/-- `seq` の順に並んだ表を確かめる。 -/
def verifyAuditChain (rows : List (Int × AuditRow)) : AuditVerification :=
  verifyRows prim rows 0 (List.replicate 32 0) none

/-- database の audit の表。`seq` は AUTOINCREMENT で、行を消す文は無い。 -/
def auditTable (db : Db) : List (Int × AuditRow) :=
  db.auditLog.zipIdx.map fun x => ((x.2 : Int) + 1, x.1)

/-- 表の最後の `(seq, hash)`。 -/
def tableHead (rows : List (Int × AuditRow)) : Option (Int × Bytes) :=
  rows.getLast?.map fun r => (r.1, r.2.hash)

/-- `Store::audit` の繰り返し。時刻は呼び出しごとに読まれる。 -/
def auditAll (db : Db) (entries : List AuditEntry) : Db :=
  entries.foldl (fun db e => audit db prim e.ts e.endpointId e.op e.target e.outcome) db

/-! ## 鎖として見る -/

/-- 前の hash につなげた hash。 -/
def AuditEntry.digest (prev : Bytes) (e : AuditEntry) : Bytes :=
  auditHash prim prev e.ts e.endpointId e.op e.target e.outcome

end Store

/-- 行を鎖の一つとして見たもの。 -/
def AuditRow.link (row : AuditRow) : Link Bytes Store.AuditEntry :=
  ⟨row.prevHash, row.entry, row.hash⟩

namespace Store

/-- 最初の行の前の hash。 -/
def genesis : Bytes := List.replicate 32 0

variable {prim : Primitives} {rows rows' : List (Int × AuditRow)}

/-- loop が最後まで進むのは、残りが鎖になっているときである。 -/
theorem verifyRows_eq_valid {n m : Nat} {prev : Bytes} {h h' : Option (Int × Bytes)} :
    verifyRows prim rows n prev h = .valid m h' ↔
      Chained (AuditEntry.digest prim) prev (rows.map (·.2.link)) ∧ m = n + rows.length ∧
        h' = (tableHead rows).or h := by
  induction rows generalizing n prev h with
  | nil =>
    rw [verifyRows]
    constructor
    · intro he
      cases he
      exact ⟨trivial, rfl, rfl⟩
    · rintro ⟨-, rfl, rfl⟩
      rfl
  | cons r rest ih =>
    have hhead : (tableHead rest).or (some (r.1, r.2.hash)) = (tableHead (r :: rest)).or h := by
      unfold tableHead
      rcases List.eq_nil_or_concat rest with rfl | ⟨front, last, rfl⟩
      · rfl
      · rw [List.concat_eq_append, ← List.cons_append, List.getLast?_concat, List.getLast?_concat]
        rfl
    rw [verifyRows, List.map_cons, Chained]
    split
    · next hprev =>
      exact iff_of_false (fun he => by cases he) fun hc => hprev hc.1.1
    · next hprev =>
      have hprev := not_not.mp hprev
      split
      · next hhash =>
        refine iff_of_false (fun he => by cases he) fun hc => hhash ?_
        rw [← hprev]
        exact hc.1.2.1.symm
      · next hhash =>
        have hhash : r.2.link.hash = AuditEntry.digest prim r.2.link.prev r.2.link.content := by
          show r.2.hash = auditHash prim r.2.prevHash _ _ _ _ _
          rw [hprev]
          exact (not_not.mp hhash).symm
        rw [ih, hhead, List.length_cons]
        constructor
        · rintro ⟨hc, rfl, rfl⟩
          exact ⟨⟨hprev, hhash, hc⟩, by omega, rfl⟩
        · rintro ⟨⟨-, -, hc⟩, rfl, rfl⟩
          exact ⟨hc, by omega, rfl⟩

/-- **通るのは鎖だけで、答えは行の数と最後の hash である。** -/
theorem verifyAuditChain_eq_valid {m : Nat} {h : Option (Int × Bytes)} :
    verifyAuditChain prim rows = .valid m h ↔
      Chained (AuditEntry.digest prim) genesis (rows.map (·.2.link)) ∧ m = rows.length ∧
        h = tableHead rows := by
  unfold verifyAuditChain
  rw [verifyRows_eq_valid, Option.or_none, Nat.zero_add]
  rfl

/-- 通らない表は、どこかの行で切れている。 -/
theorem exists_broken (h : ∀ m h, verifyAuditChain prim rows ≠ .valid m h) :
    ∃ seq, verifyAuditChain prim rows = .broken seq := by
  cases hv : verifyAuditChain prim rows with
  | valid m h' => exact absurd hv (h m h')
  | broken seq => exact ⟨seq, rfl⟩

/-! ## append -/

theorem links_auditTable (db : Db) : (auditTable db).map (·.2.link) = db.auditLog.map AuditRow.link := by
  rw [auditTable, List.map_map]
  conv_rhs => rw [← List.zipIdx_map_fst 0 db.auditLog, List.map_map]
  rfl

theorem length_auditTable (db : Db) : (auditTable db).length = db.auditLog.length := by
  rw [auditTable, List.length_map, List.length_zipIdx]

/-- 一行足しても、鎖は鎖のままである。 -/
theorem chained_audit {db : Db}
    (h : Chained (AuditEntry.digest prim) genesis (db.auditLog.map AuditRow.link)) (e : AuditEntry) :
    Chained (AuditEntry.digest prim) genesis
      ((audit db prim e.ts e.endpointId e.op e.target e.outcome).auditLog.map AuditRow.link) := by
  show Chained _ genesis ((db.auditLog ++ [_]).map AuditRow.link)
  rw [List.map_append]
  refine chained_concat.mpr ⟨h, ?_, rfl⟩
  show (db.auditLog.getLast?.map (·.hash)).getD genesis = _
  rw [HashChain.head, List.getLast?_map, Option.map_map]
  rfl

theorem chained_auditAll {db : Db} (entries : List AuditEntry)
    (h : Chained (AuditEntry.digest prim) genesis (db.auditLog.map AuditRow.link)) :
    Chained (AuditEntry.digest prim) genesis ((auditAll prim db entries).auditLog.map AuditRow.link) := by
  induction entries generalizing db with
  | nil => exact h
  | cons e rest ih => exact ih (chained_audit h e)

theorem entries_auditAll (db : Db) (entries : List AuditEntry) :
    (auditAll prim db entries).auditLog.map AuditRow.entry = db.auditLog.map AuditRow.entry ++ entries := by
  induction entries generalizing db with
  | nil => rw [List.append_nil]; rfl
  | cons e rest ih =>
    refine (ih (audit db prim e.ts e.endpointId e.op e.target e.outcome)).trans ?_
    show (db.auditLog ++ [_]).map AuditRow.entry ++ rest = _
    rw [List.map_append, List.append_assoc]
    rfl

/-! ## hash に渡す列 -/

end Store

/-- 行が hash に渡す列。 -/
def AuditRow.preimage (row : AuditRow) : Bytes :=
  row.prevHash ++ Store.timestampBytes row.ts ++ Store.auditField row.endpointId ++
    Store.auditField row.op ++ Store.auditField row.target ++ Store.auditField row.outcome

namespace Store

/-- i64 の時刻と、長さが u64 に収まる文字列。 -/
structure AuditEntry.Fits (e : AuditEntry) : Prop where
  ts : -2 ^ 63 ≤ e.ts ∧ e.ts < 2 ^ 63
  endpointId : (asBytes e.endpointId).length < 2 ^ 64
  op : (asBytes e.op).length < 2 ^ 64
  target : (asBytes e.target).length < 2 ^ 64
  outcome : (asBytes e.outcome).length < 2 ^ 64

instance (e : AuditEntry) : Decidable e.Fits :=
  decidable_of_iff
    ((-2 ^ 63 ≤ e.ts ∧ e.ts < 2 ^ 63) ∧ (asBytes e.endpointId).length < 2 ^ 64 ∧
      (asBytes e.op).length < 2 ^ 64 ∧ (asBytes e.target).length < 2 ^ 64 ∧
      (asBytes e.outcome).length < 2 ^ 64)
    ⟨fun ⟨a, b, c, d, f⟩ => ⟨a, b, c, d, f⟩,
      fun h => ⟨h.ts, h.endpointId, h.op, h.target, h.outcome⟩⟩

theorem selfDelimiting_timestampBytes :
    SelfDelimiting (fun ts : Int => -2 ^ 63 ≤ ts ∧ ts < 2 ^ 63) timestampBytes := by
  refine .of_length (n := 8) (fun _ => rfl) fun a b ha hb h => ?_
  have hmod := toBeBytes_inj (by omega) (by omega) h
  omega

theorem selfDelimiting_auditField :
    SelfDelimiting (fun s : String => (asBytes s).length < 2 ^ 64) auditField :=
  selfDelimiting_toBeBytes.sized.comap fun _ _ => asBytes_inj

/-- 前の hash の長さが同じなら、列から前の hash と中身が戻る。 -/
theorem preimage_inj {a b : AuditRow} (ha : a.entry.Fits) (hb : b.entry.Fits)
    (hlen : a.prevHash.length = b.prevHash.length) (h : a.preimage = b.preimage) :
    a.prevHash = b.prevHash ∧ a.entry = b.entry := by
  unfold AuditRow.preimage at h
  simp only [List.append_assoc] at h
  obtain ⟨hprev, h⟩ := List.append_inj h hlen
  obtain ⟨hts, h⟩ := selfDelimiting_timestampBytes _ _ _ _ ha.ts hb.ts h
  obtain ⟨hendpoint, h⟩ := selfDelimiting_auditField _ _ _ _ ha.endpointId hb.endpointId h
  obtain ⟨hop, h⟩ := selfDelimiting_auditField _ _ _ _ ha.op hb.op h
  obtain ⟨htarget, h⟩ := selfDelimiting_auditField _ _ _ _ ha.target hb.target h
  rw [← List.append_nil (auditField a.outcome), ← List.append_nil (auditField b.outcome)] at h
  obtain ⟨houtcome, -⟩ := selfDelimiting_auditField _ _ _ _ ha.outcome hb.outcome h
  refine ⟨hprev, ?_⟩
  change a.ts = b.ts at hts
  change a.endpointId = b.endpointId at hendpoint
  change a.op = b.op at hop
  change a.target = b.target at htarget
  change a.outcome = b.outcome at houtcome
  unfold AuditRow.entry
  rw [hts, hendpoint, hop, htarget, houtcome]

/-- 二つの表の行の上での、sha256 への期待。出力は 32 byte なので、衝突しないのは現れる入力に限る。 -/
structure HashesApart (prim : Primitives) (rows rows' : List (Int × AuditRow)) : Prop where
  length : ∀ b, (prim.sha256 b).length = 32
  inj : ∀ r ∈ rows, ∀ r' ∈ rows', prim.sha256 r.2.preimage = prim.sha256 r'.2.preimage →
    r.2.preimage = r'.2.preimage
  nonzero : ∀ r ∈ rows ++ rows', prim.sha256 r.2.preimage ≠ genesis

/-- **最後の hash の同じ二つの表は、中身も同じである。** -/
theorem links_eq (hfit : ∀ r ∈ rows, r.2.entry.Fits) (hfit' : ∀ r ∈ rows', r.2.entry.Fits)
    (hash : HashesApart prim rows rows')
    (hc : Chained (AuditEntry.digest prim) genesis (rows.map (·.2.link)))
    (hc' : Chained (AuditEntry.digest prim) genesis (rows'.map (·.2.link)))
    (hhead : (tableHead rows).map Prod.snd = (tableHead rows').map Prod.snd) :
    rows.map (·.2.link) = rows'.map (·.2.link) := by
  have hdigest : ∀ d e, (AuditEntry.digest prim d e).length = 32 := fun _ _ => hash.length _
  have hprev := hc.prev (P := (·.length = 32)) rfl hdigest
  have hprev' := hc'.prev (P := (·.length = 32)) rfl hdigest
  have hlast : ∀ t : List (Int × AuditRow), HashChain.head genesis (t.map (·.2.link)) =
      ((tableHead t).map Prod.snd).getD genesis := by
    intro t
    rw [HashChain.head, List.getLast?_map, tableHead, Option.map_map, Option.map_map]
    rfl
  refine hc.ext hc' ?_ ?_ ?_ ?_
  · intro x hx y hy he
    obtain ⟨r, hr, rfl⟩ := List.mem_map.mp hx
    obtain ⟨r', hr', rfl⟩ := List.mem_map.mp hy
    have hlen := (hprev _ hx).trans (hprev' _ hy).symm
    exact preimage_inj (hfit r hr) (hfit' r' hr') hlen (hash.inj r hr r' hr' he)
  · intro x hx
    obtain ⟨r, hr, rfl⟩ := List.mem_map.mp hx
    exact hash.nonzero r (List.mem_append_left _ hr)
  · intro x hx
    obtain ⟨r, hr, rfl⟩ := List.mem_map.mp hx
    exact hash.nonzero r (List.mem_append_right _ hr)
  · rw [hlast, hlast, hhead]

/--
**audit の鎖は log の全体を決める。**

append だけで出来た表は、行の数と最後の hash を答えて通る。通った二つの表は、最後の hash が同じなら、
行の数も中身も順も同じである。したがって、控えておいた最後の hash を保つ書き換え、挿し込み、入れ替え、
削除は、どれも切れた鎖になる。
-/
theorem audit_chain_pins_log (prim : Primitives) :
    (∀ (db : Db) (entries : List AuditEntry), db.auditLog = [] →
      let log := auditAll prim db entries
      verifyAuditChain prim (auditTable log) =
          .valid entries.length (tableHead (auditTable log)) ∧
        log.auditLog.map AuditRow.entry = entries) ∧
    ∀ rows rows' : List (Int × AuditRow), (∀ r ∈ rows, r.2.entry.Fits) →
      (∀ r ∈ rows', r.2.entry.Fits) → HashesApart prim rows rows' →
      ∀ n h, verifyAuditChain prim rows = .valid n h →
        (∀ n' h', verifyAuditChain prim rows' = .valid n' h' → h.map Prod.snd = h'.map Prod.snd →
          n = n' ∧ rows.map (·.2.entry) = rows'.map (·.2.entry)) ∧
        ((tableHead rows').map Prod.snd = h.map Prod.snd →
          rows'.map (·.2.entry) ≠ rows.map (·.2.entry) →
          ∃ seq, verifyAuditChain prim rows' = .broken seq) := by
  refine ⟨fun db entries hempty => ?_, fun rows rows' hfit hfit' hash n h hv => ?_⟩
  · have hentries := @entries_auditAll prim db entries
    rw [hempty] at hentries
    refine ⟨verifyAuditChain_eq_valid.mpr ⟨?_, ?_, rfl⟩, hentries⟩
    · rw [links_auditTable]
      exact chained_auditAll entries (by rw [hempty]; exact trivial)
    · rw [length_auditTable, ← List.length_map AuditRow.entry, hentries]
      rfl
  · obtain ⟨hc, rfl, rfl⟩ := verifyAuditChain_eq_valid.mp hv
    have hsame : ∀ n' h', verifyAuditChain prim rows' = .valid n' h' →
        (tableHead rows).map Prod.snd = h'.map Prod.snd →
        rows.length = n' ∧ rows.map (·.2.entry) = rows'.map (·.2.entry) := by
      intro n' h' hv' hhead
      obtain ⟨hc', rfl, rfl⟩ := verifyAuditChain_eq_valid.mp hv'
      have hlinks := links_eq hfit hfit' hash hc hc' hhead
      refine ⟨by simpa using congrArg List.length hlinks, ?_⟩
      have hcontents := congrArg (List.map Link.content) hlinks
      rw [List.map_map, List.map_map] at hcontents
      exact hcontents
    refine ⟨hsame, fun hhead hne => exists_broken fun n' h' hv' => hne ?_⟩
    obtain ⟨-, -, rfl⟩ := verifyAuditChain_eq_valid.mp hv'
    exact (hsame _ _ hv' hhead.symm).2.symm

/-- byte の和を覚える 32 byte の hash。 -/
def sumHash (b : Bytes) : Bytes := 1 :: b.foldl (· + ·) 0 :: List.replicate 30 0

/-- 和を hash とする例。 -/
def sumPrimitives : Primitives := { plain with sha256 := sumHash }

/-- 二行の audit。 -/
def sampleLog : List (Int × AuditRow) :=
  auditTable (auditAll sumPrimitives .empty
    [⟨1, "a", "get", "g/n", "ok"⟩, ⟨2, "b", "put", "g/n", "denied"⟩])

/-- 拒んだ記録を、通した記録に書き換えた表。 -/
def editedLog : List (Int × AuditRow) :=
  sampleLog.map fun r => (r.1, { r.2 with outcome := "ok" })

theorem audit_chain_pins_log_sample :
    verifyAuditChain sumPrimitives sampleLog = .valid 2 (tableHead sampleLog) ∧
      ∃ seq, verifyAuditChain sumPrimitives editedLog = .broken seq := by
  obtain ⟨happend, hpins⟩ := audit_chain_pins_log sumPrimitives
  have hvalid : verifyAuditChain sumPrimitives sampleLog = .valid 2 (tableHead sampleLog) :=
    (happend .empty _ rfl).1
  have hfit : ∀ r ∈ sampleLog, r.2.entry.Fits := by decide +kernel
  have hfit' : ∀ r ∈ editedLog, r.2.entry.Fits := by decide +kernel
  have hash : HashesApart sumPrimitives sampleLog editedLog :=
    ⟨fun _ => rfl, by decide +kernel, fun _ _ h => nomatch h⟩
  exact ⟨hvalid, (hpins sampleLog editedLog hfit hfit' hash 2 _ hvalid).2 (by decide +kernel)
    (by decide +kernel)⟩

end Store

end SecretBunker
