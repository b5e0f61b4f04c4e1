import Keychute.Crypto
import Keychute.Db.Store
import Keychute.Lib.Matching
import Keychute.PolicyForms

/-!
# Policy rows from config (`server/src/db/provision.rs`)

* `policyKey` : everything that makes two policy rows the same rule;
* `reconcilePolicies` : one transaction that deletes the managed rows the config no longer has and inserts the rules
  that have no row yet. The rows arrive in whatever order the database scans them; `ids` are the ids it draws;
* `reconcilePolicies_diff` : the managed rows become the configured rules, as multisets, and a second run does nothing.
-/

namespace Keychute.Reconcile
open Keychute.Db Keychute.Lib Keychute.Crypto

/-! ## Timestamps -/

/-- `DateTime::timestamp_micros`. -/
def timestampMicros (t : DateTime) : Int := t.nanos / 1000

/-- The instant Postgres counts from. -/
def pgEpoch : DateTime := .ofSeconds 946684800

/-- A `timestamptz` as it is read back: whole microseconds from `pgEpoch`, the rest cut off. -/
def toTimestamptz (t : DateTime) : DateTime :=
  if h : pgEpoch ≤ t then
    ⟨t.nanos - t.nanos % 1000, by have := t.min_le; omega, by have := t.le_max; omega⟩
  else
    ⟨t.nanos + -t.nanos % 1000, by have := t.min_le; omega, by
      have hlt : t.nanos < 946684800 * 10 ^ 9 := DateTime.lt_def.1 (not_le.1 h)
      omega⟩

theorem timestampMicros_toTimestamptz {t : DateTime} (h : pgEpoch ≤ t) :
    timestampMicros (toTimestamptz t) = timestampMicros t := by
  rw [toTimestamptz, dif_pos h]
  change (t.nanos - t.nanos % 1000) / 1000 = t.nanos / 1000
  omega

/-! ## Keys -/

def CONFIG_ACTOR : String := "config"

/-- An optional field in `json!`. -/
def orNull {α : Type} (f : α → Json) (o : Option α) : Json := o.elim .null f

/-- Everything that makes two policy rows the same rule. -/
def policyKey (p : NewPolicy) : Json :=
  .arr [orNull .str p.clientName, orNull .str p.secretName, orNull .str p.secretTag, .str p.mechanism, .str p.outcome,
    .int p.priority, p.origins, .arr (p.methods.map .str), .arr (p.pathPrefixes.map .str), orNull .int p.maxTtlSeconds,
    orNull .int p.maxUses, orNull .int (p.notAfter.map timestampMicros)]

/-- The rule of a stored row. -/
def ruleOf (row : PolicyRow) : NewPolicy where
  clientName := row.clientName
  secretName := row.secretName
  secretTag := row.secretTag
  mechanism := row.mechanism
  outcome := row.outcome
  priority := row.priority
  origins := row.origins
  methods := row.methods
  pathPrefixes := row.pathPrefixes
  maxTtlSeconds := row.maxTtlSeconds
  maxUses := row.maxUses
  notAfter := row.notAfter
  createdBy := row.createdBy

def rowKey (row : PolicyRow) : Json := policyKey (ruleOf row)

/-- The row that the `INSERT` leaves: `jsonb` is what a column of that type gives back of a value. -/
def storedPolicy (jsonb : Json → Json) (p : NewPolicy) (id : Uuid) (now : DateTime) : PolicyRow :=
  { p.row id now true with
    origins := jsonb p.origins
    notAfter := p.notAfter.map toTimestamptz
    createdBy := CONFIG_ACTOR }

/-! ## The transaction -/

structure PolicyChanges where
  created : Nat
  deleted : Nat
  deriving DecidableEq

def policyDeletedRow (now : DateTime) (row : PolicyRow) : AuditRow where
  at_ := now
  kind := .policyDeleted
  clientName := row.clientName
  secretName := row.secretName
  actor := some CONFIG_ACTOR
  detail := some (.obj [("policy_id", .str (uuidDisplay row.id))])

def policyCreatedRow (now : DateTime) (row : PolicyRow) : AuditRow where
  at_ := now
  kind := .policyCreated
  clientName := row.clientName
  secretName := row.secretName
  actor := some CONFIG_ACTOR
  detail := some (.obj [("mechanism", .str row.mechanism), ("outcome", .str row.outcome),
    ("policy_id", .str (uuidDisplay row.id))])

def deletePolicy (now : DateTime) (s : Store) (row : PolicyRow) : Store :=
  { s with
    policies := s.policies.delete (·.id == row.id)
    audit := s.audit ++ [policyDeletedRow now row] }

/-- The loop over the managed rows: a row takes the first rule with its key out of `wanted`, or is deleted. -/
def matchPolicies (now : DateTime) : List PolicyRow → List (Json × NewPolicy) → Store → PolicyChanges →
    Store × PolicyChanges × List (Json × NewPolicy)
  | [], wanted, s, changes => (s, changes, wanted)
  | row :: rows, wanted, s, changes =>
    match wanted.findIdx? fun w => w.1 == rowKey row with
    | some i => matchPolicies now rows (swapRemove wanted i) s changes
    | none => matchPolicies now rows wanted (deletePolicy now s row) { changes with deleted := changes.deleted + 1 }

/-- The loop over the rules that are left. -/
def insertPolicies (jsonb : Json → Json) (now : DateTime) : List (Json × NewPolicy) → (Nat → Uuid) → Store →
    PolicyChanges → Except DbError (Store × PolicyChanges)
  | [], _, s, changes => .ok (s, changes)
  | (_, p) :: wanted, ids, s, changes =>
    let row := storedPolicy jsonb p (ids 0) now
    if s.policies.Fresh row then
      insertPolicies jsonb now wanted (fun n => ids (n + 1))
        { s with policies := s.policies.insert row, audit := s.audit ++ [policyCreatedRow now row] }
        { changes with created := changes.created + 1 }
    else .error .uniqueViolation

/-- `existing` is what `SELECT .. WHERE managed_by_config FOR UPDATE` returns. -/
def reconcilePolicies (jsonb : Json → Json) (existing : List PolicyRow) (ids : Nat → Uuid) (now : DateTime)
    (desired : List NewPolicy) (s : Store) : Except DbError (Store × PolicyChanges) :=
  let wanted := desired.map fun p => (policyKey p, p)
  let (s, changes, wanted) := matchPolicies now existing wanted s ⟨0, 0⟩
  insertPolicies jsonb now wanted ids s changes

/-- The managed rows, as the table lists them. -/
def managedPolicies (s : Store) : List PolicyRow := s.policies.rows.filter (·.managedByConfig)

/-! ## What each loop does -/

theorem rowKey_storedPolicy {jsonb : Json → Json} {p : NewPolicy} (horigins : jsonb p.origins = p.origins)
    (h : ∀ t, p.notAfter = some t → pgEpoch ≤ t) (id : Uuid) (now : DateTime) :
    rowKey (storedPolicy jsonb p id now) = policyKey p := by
  have hmicros : (p.notAfter.map toTimestamptz).map timestampMicros = p.notAfter.map timestampMicros := by
    cases ht : p.notAfter with
    | none => rfl
    | some t => exact congrArg some (timestampMicros_toTimestamptz (h t ht))
  simp only [rowKey, policyKey, ruleOf, storedPolicy, NewPolicy.row, horigins, hmicros]

theorem matchPolicies_eq (now : DateTime) (rows : List PolicyRow) (wanted : List (Json × NewPolicy)) (s : Store)
    (changes : PolicyChanges) : matchPolicies now rows wanted s changes =
      ((greedy rowKey Prod.fst rows wanted).unmatched.foldl (deletePolicy now) s,
        { changes with deleted := changes.deleted + (greedy rowKey Prod.fst rows wanted).unmatched.length },
        (greedy rowKey Prod.fst rows wanted).left) := by
  induction rows generalizing wanted s changes with
  | nil => rfl
  | cons row rows ih =>
      rw [matchPolicies]
      split
      · rename_i i hi
        rw [ih, greedy_cons_some hi]
      · rename_i hnone
        rw [ih, greedy_cons_none hnone]
        simp only [List.foldl_cons, List.length_cons, Nat.add_assoc, Nat.add_comm 1]

theorem foldl_deletePolicy (now : DateTime) (rows : List PolicyRow) (s : Store) :
    (rows.foldl (deletePolicy now) s).policies.rows =
        s.policies.rows.filter (fun r => !(rows.map (·.id)).contains r.id) ∧
      rows.foldl (deletePolicy now) s =
        { s with
          policies := (rows.foldl (deletePolicy now) s).policies
          audit := s.audit ++ rows.map (policyDeletedRow now) } := by
  induction rows generalizing s with
  | nil => simp
  | cons row rows ih =>
      obtain ⟨hrows, hs⟩ := ih (deletePolicy now s row)
      constructor
      · rw [List.foldl_cons, hrows, deletePolicy, Table.delete_rows, List.filter_filter]
        congr 1
        funext r
        rw [List.map_cons, List.contains_cons, Bool.not_or, Bool.and_comm]
      · rw [List.foldl_cons, hs]
        simp [deletePolicy]

/-- The rows that the second loop inserts. -/
def insertedRows (jsonb : Json → Json) (now : DateTime) : List (Json × NewPolicy) → (Nat → Uuid) → List PolicyRow
  | [], _ => []
  | (_, p) :: wanted, ids => storedPolicy jsonb p (ids 0) now :: insertedRows jsonb now wanted fun n => ids (n + 1)

theorem insertPolicies_eq_ok {jsonb : Json → Json} {now : DateTime} {wanted : List (Json × NewPolicy)} {ids : Nat → Uuid}
    {s s' : Store} {changes changes' : PolicyChanges}
    (h : insertPolicies jsonb now wanted ids s changes = .ok (s', changes')) :
    s'.policies.rows = s.policies.rows ++ insertedRows jsonb now wanted ids ∧
      s' = { s with
        policies := s'.policies
        audit := s.audit ++ (insertedRows jsonb now wanted ids).map (policyCreatedRow now) } ∧
      changes' = { changes with created := changes.created + (insertedRows jsonb now wanted ids).length } := by
  induction wanted generalizing ids s changes with
  | nil =>
      cases h
      simp [insertedRows]
  | cons w wanted ih =>
      rw [insertPolicies] at h
      split at h
      · rename_i hfresh
        obtain ⟨hrows, hs, hch⟩ := ih h
        refine ⟨?_, ?_, ?_⟩
        · rw [hrows, Table.insert_rows hfresh, List.append_assoc]
          rfl
        · rw [hs]
          simp [insertedRows]
        · rw [hch]
          simp only [insertedRows, List.length_cons]
          congr 1
          omega
      · cases h

/-- Ids that are new and distinct let the second loop through. -/
theorem insertPolicies_ok {jsonb : Json → Json} {now : DateTime} {wanted : List (Json × NewPolicy)} {ids : Nat → Uuid}
    {s : Store} {changes : PolicyChanges}
    (hinj : ∀ i < wanted.length, ∀ j < wanted.length, ids i = ids j → i = j)
    (hfresh : ∀ i < wanted.length, ∀ r ∈ s.policies.rows, r.id ≠ ids i) :
    ∃ res, insertPolicies jsonb now wanted ids s changes = .ok res := by
  induction wanted generalizing ids s changes with
  | nil => exact ⟨_, rfl⟩
  | cons w wanted ih =>
      have hpos : 0 < (w :: wanted).length := Nat.succ_pos _
      have hrow : s.policies.Fresh (storedPolicy jsonb w.2 (ids 0) now) := by
        intro r hr
        rw [← Bool.not_eq_true, Keys.single_clashes]
        exact hfresh 0 hpos r hr
      rw [insertPolicies, if_pos hrow]
      refine ih (fun i hi j hj h => Nat.succ.inj (hinj _ (Nat.succ_lt_succ hi) _ (Nat.succ_lt_succ hj) h)) ?_
      intro i hi r hr
      rcases Table.mem_of_mem_insert hr with hr | rfl
      · exact hfresh (i + 1) (Nat.succ_lt_succ hi) r hr
      · exact fun h => Nat.succ_ne_zero i (hinj _ (Nat.succ_lt_succ hi) _ hpos h.symm)

/-! ## The run as a whole -/

/-- Both loops together: the rows that found no rule are removed, the rules that found no row are inserted. -/
theorem reconcilePolicies_eq_ok {jsonb : Json → Json} {existing : List PolicyRow} {ids : Nat → Uuid} {now : DateTime}
    {desired : List NewPolicy} {s s' : Store} {changes : PolicyChanges} {m : Matching PolicyRow (Json × NewPolicy)}
    (hm : m = greedy rowKey Prod.fst existing (desired.map fun p => (policyKey p, p)))
    (h : reconcilePolicies jsonb existing ids now desired s = .ok (s', changes)) :
    s'.policies.rows = s.policies.rows.filter (fun r => !(m.unmatched.map (·.id)).contains r.id) ++
        insertedRows jsonb now m.left ids ∧
      s' = { s with
        policies := s'.policies
        audit := s.audit ++ m.unmatched.map (policyDeletedRow now) ++
          (insertedRows jsonb now m.left ids).map (policyCreatedRow now) } ∧
      changes = ⟨(insertedRows jsonb now m.left ids).length, m.unmatched.length⟩ := by
  rw [reconcilePolicies, matchPolicies_eq, ← hm] at h
  obtain ⟨hrows, hs, hch⟩ := insertPolicies_eq_ok h
  obtain ⟨hdel, hsdel⟩ := foldl_deletePolicy now m.unmatched s
  refine ⟨by rw [hrows, hdel], ?_, ?_⟩
  · rw [hs, hsdel]
  · rw [hch]
    simp only [Nat.zero_add]

section Rows
variable {s : Store} {existing : List PolicyRow} {wanted : List (Json × NewPolicy)}
  {m : Matching PolicyRow (Json × NewPolicy)}

theorem policy_eq_of_id {a b : PolicyRow} (ha : a ∈ s.policies.rows) (hb : b ∈ s.policies.rows) (h : a.id = b.id) :
    a = b := Table.eq_of_clash ha hb (Keys.single_clashes.2 h)

theorem mem_managed {a : PolicyRow} : a ∈ managedPolicies s ↔ a ∈ s.policies.rows ∧ a.managedByConfig = true := by
  rw [managedPolicies, List.mem_filter]

theorem nodup_policies (s : Store) : s.policies.rows.Nodup := by
  refine s.policies.distinct.imp fun {a b} h heq => ?_
  rw [heq, Keys.single_clashes.2 rfl] at h
  cases h

/-- The rows of a scan, split by the matching. -/
theorem mem_scan (hm : m = greedy rowKey Prod.fst existing wanted) (hscan : existing.Perm (managedPolicies s))
    {a : PolicyRow} : a ∈ m.kept ∨ a ∈ m.unmatched ↔ a ∈ managedPolicies s := by
  rw [← List.mem_append, hm, (greedy_rows existing wanted).mem_iff, hscan.mem_iff]

/-- A row is deleted exactly when it found no rule. -/
theorem contains_unmatched (hm : m = greedy rowKey Prod.fst existing wanted)
    (hscan : existing.Perm (managedPolicies s)) {a : PolicyRow} (ha : a ∈ s.policies.rows) :
    (m.unmatched.map (·.id)).contains a.id = true ↔ a ∈ m.unmatched := by
  rw [List.contains_iff_mem, List.mem_map]
  constructor
  · rintro ⟨b, hb, hid⟩
    rwa [← policy_eq_of_id (mem_managed.1 ((mem_scan hm hscan).1 (.inr hb))).1 ha hid]
  · intro h
    exact ⟨a, h, rfl⟩

theorem scan_nodup (hm : m = greedy rowKey Prod.fst existing wanted) (hscan : existing.Perm (managedPolicies s)) :
    (m.kept ++ m.unmatched).Nodup := by
  rw [hm]
  exact ((greedy_rows existing wanted).trans hscan).nodup_iff.2 ((nodup_policies s).filter _)

theorem unmatched_nodup (hm : m = greedy rowKey Prod.fst existing wanted) (hscan : existing.Perm (managedPolicies s)) :
    m.unmatched.Nodup := (List.nodup_append.1 (scan_nodup hm hscan)).2.1

/-- The managed rows that stay are those that found a rule. -/
theorem managed_kept (hm : m = greedy rowKey Prod.fst existing wanted) (hscan : existing.Perm (managedPolicies s)) :
    ((managedPolicies s).filter fun r => !(m.unmatched.map (·.id)).contains r.id).Perm m.kept := by
  have hsplit : (m.kept ++ m.unmatched).Perm (managedPolicies s) := by
    rw [hm]
    exact (greedy_rows existing wanted).trans hscan
  have hmem : ∀ a ∈ m.kept ++ m.unmatched, a ∈ s.policies.rows := fun a ha => (mem_managed.1 (hsplit.subset ha)).1
  refine (hsplit.symm.filter _).trans ?_
  rw [List.filter_append, List.filter_eq_self.2, List.filter_eq_nil_iff.2, List.append_nil]
  · intro a ha
    simpa using (contains_unmatched hm hscan (hmem a (List.mem_append_right _ ha))).2 ha
  · intro a ha
    have hout : a ∉ m.unmatched := fun h => (List.nodup_append.1 (scan_nodup hm hscan)).2.2 a ha a h rfl
    simpa using fun h => hout ((contains_unmatched hm hscan (hmem a (List.mem_append_left _ ha))).1 h)

variable {s' : Store} {added : List PolicyRow}

theorem unmanaged_unchanged (hm : m = greedy rowKey Prod.fst existing wanted)
    (hscan : existing.Perm (managedPolicies s))
    (hrows : s'.policies.rows = s.policies.rows.filter (fun r => !(m.unmatched.map (·.id)).contains r.id) ++ added)
    (hadded : ∀ r ∈ added, r.managedByConfig = true) :
    s'.policies.rows.filter (!·.managedByConfig) = s.policies.rows.filter (!·.managedByConfig) := by
  have hnone : added.filter (!·.managedByConfig) = [] := by
    rw [List.filter_eq_nil_iff]
    intro r hr
    simp [hadded r hr]
  rw [hrows, List.filter_append, hnone, List.append_nil, List.filter_filter]
  refine List.filter_congr fun r hr => ?_
  cases hman : r.managedByConfig with
  | true => rfl
  | false =>
      have hun : (m.unmatched.map (·.id)).contains r.id = false := by
        rw [← Bool.not_eq_true, contains_unmatched hm hscan hr]
        intro hmem
        rw [(mem_managed.1 ((mem_scan hm hscan).1 (.inr hmem))).2] at hman
        cases hman
      rw [hun]
      rfl

/-- What found no rule is what the run removes. -/
theorem mem_unmatched_iff (hm : m = greedy rowKey Prod.fst existing wanted)
    (hscan : existing.Perm (managedPolicies s))
    (hrows : s'.policies.rows = s.policies.rows.filter (fun r => !(m.unmatched.map (·.id)).contains r.id) ++ added)
    (hdisjoint : ∀ r ∈ m.unmatched, r ∉ added) {r : PolicyRow} :
    r ∈ m.unmatched ↔ r ∈ s.policies.rows ∧ r ∉ s'.policies.rows := by
  rw [hrows, List.mem_append, List.mem_filter, not_or, not_and]
  constructor
  · intro hr
    refine ⟨(mem_managed.1 ((mem_scan hm hscan).1 (.inr hr))).1, fun hmem hnot => ?_, hdisjoint r hr⟩
    rw [(contains_unmatched hm hscan hmem).2 hr] at hnot
    cases hnot
  · rintro ⟨hmem, hnot, -⟩
    have hc := hnot hmem
    rw [Bool.not_eq_true, Bool.not_eq_false'] at hc
    exact (contains_unmatched hm hscan hmem).1 hc

/-- What the run adds is what was not there before. -/
theorem mem_added_iff (hm : m = greedy rowKey Prod.fst existing wanted) (hscan : existing.Perm (managedPolicies s))
    (hrows : s'.policies.rows = s.policies.rows.filter (fun r => !(m.unmatched.map (·.id)).contains r.id) ++ added)
    (hdisjoint : ∀ r ∈ m.unmatched, r ∉ added) {r : PolicyRow} :
    r ∈ added ↔ r ∈ s'.policies.rows ∧ r ∉ s.policies.rows := by
  have hnodup := hrows ▸ nodup_policies s'
  constructor
  · intro hr
    refine ⟨hrows ▸ List.mem_append_right _ hr, fun hmem => ?_⟩
    by_cases hun : r ∈ m.unmatched
    · exact hdisjoint r hun hr
    · have hfilter : r ∈ s.policies.rows.filter fun r => !(m.unmatched.map (·.id)).contains r.id := by
        refine List.mem_filter.2 ⟨hmem, ?_⟩
        rw [Bool.not_eq_true', ← Bool.not_eq_true, contains_unmatched hm hscan hmem]
        exact hun
      exact (List.nodup_append.1 hnodup).2.2 r hfilter r hr rfl
  · rintro ⟨hmem, hnot⟩
    rcases List.mem_append.1 (hrows ▸ hmem) with hf | hin
    · exact absurd (List.mem_filter.1 hf).1 hnot
    · exact hin

end Rows

theorem insertedRows_managed {jsonb : Json → Json} {now : DateTime} {wanted : List (Json × NewPolicy)} {ids : Nat → Uuid}
    {r : PolicyRow} (h : r ∈ insertedRows jsonb now wanted ids) : r.managedByConfig = true := by
  induction wanted generalizing ids with
  | nil => cases h
  | cons w wanted ih =>
      rcases List.mem_cons.1 h with rfl | h
      · rfl
      · exact ih h

/-- Rules that come back from the database as they went in are inserted under their own keys. -/
theorem insertedRows_keys {jsonb : Json → Json} {now : DateTime} {wanted : List (Json × NewPolicy)} {ids : Nat → Uuid}
    (h : ∀ w ∈ wanted, ∀ id, rowKey (storedPolicy jsonb w.2 id now) = w.1) :
    (insertedRows jsonb now wanted ids).map rowKey = wanted.map Prod.fst := by
  induction wanted generalizing ids with
  | nil => rfl
  | cons w wanted ih =>
      rw [insertedRows, List.map_cons, List.map_cons, h w (List.mem_cons_self ..),
        ih fun v hv => h v (List.mem_cons_of_mem _ hv)]

/-- What the config produces comes back from the database with the key it went in with. -/
theorem rowKey_stored_config {url : UrlHost} {jsonb : Json → Json}
    (hjsonb : ∀ os, jsonb (Origin.listToJson os) = Origin.listToJson os) {configs : List PolicyConfig}
    {desired : List NewPolicy} (hdesired : configs.mapM (PolicyConfig.toNewPolicy url) = .ok desired)
    (h2000 : ∀ p ∈ desired, ∀ t, p.notAfter = some t → pgEpoch ≤ t) {p : NewPolicy} (hp : p ∈ desired) (id : Uuid)
    (now : DateTime) : rowKey (storedPolicy jsonb p id now) = policyKey p := by
  obtain ⟨c, hc⟩ := exists_of_mapM_eq_ok hdesired hp
  obtain ⟨os, hos, -⟩ := (PolicyConfig.toNewPolicy_stored hc).origins
  exact rowKey_storedPolicy (by rw [hos, hjsonb]) (h2000 p hp) id now

/-- A run on managed rows that are the configured rules changes nothing. -/
theorem reconcilePolicies_of_perm {jsonb : Json → Json} {existing : List PolicyRow} {desired : List NewPolicy}
    (h : (existing.map rowKey).Perm (desired.map policyKey)) (ids : Nat → Uuid) (now : DateTime) (s : Store) :
    reconcilePolicies jsonb existing ids now desired s = .ok (s, ⟨0, 0⟩) := by
  have hkeys : (existing.map rowKey).Perm ((desired.map fun p => (policyKey p, p)).map Prod.fst) := by
    simpa only [List.map_map, Function.comp_def] using h
  obtain ⟨hun, hleft⟩ := greedy_of_perm hkeys
  rw [reconcilePolicies, matchPolicies_eq, hun, hleft]
  rfl

/-- After a run the managed rows are the configured rules, as multisets of keys. A row whose key is wanted often enough
stays as it is, and so does every row that is not managed; what was removed and inserted is counted and audited row by
row; a second run finds nothing to do. -/
theorem reconcilePolicies_diff {url : UrlHost} {jsonb : Json → Json}
    (hjsonb : ∀ os, jsonb (Origin.listToJson os) = Origin.listToJson os) {configs : List PolicyConfig}
    {desired : List NewPolicy} (hdesired : configs.mapM (PolicyConfig.toNewPolicy url) = .ok desired)
    (h2000 : ∀ p ∈ desired, ∀ t, p.notAfter = some t → pgEpoch ≤ t) {s : Store} {existing : List PolicyRow}
    (hscan : existing.Perm (managedPolicies s)) (now : DateTime) :
    (∀ ids : Nat → Uuid, (∀ i < desired.length, ∀ j < desired.length, ids i = ids j → i = j) →
      (∀ i < desired.length, ∀ r ∈ s.policies.rows, r.id ≠ ids i) →
      ∃ res, reconcilePolicies jsonb existing ids now desired s = .ok res) ∧
    ∀ ids s' changes, reconcilePolicies jsonb existing ids now desired s = .ok (s', changes) →
      ((managedPolicies s').map rowKey).Perm (desired.map policyKey) ∧
      (∀ r ∈ managedPolicies s,
        ((managedPolicies s).map rowKey).count (rowKey r) ≤ (desired.map policyKey).count (rowKey r) →
          r ∈ s'.policies.rows) ∧
      s'.policies.rows.filter (!·.managedByConfig) = s.policies.rows.filter (!·.managedByConfig) ∧
      (∃ removed inserted : List PolicyRow, removed.Nodup ∧ inserted.Nodup ∧
        (∀ r, r ∈ removed ↔ r ∈ s.policies.rows ∧ r ∉ s'.policies.rows) ∧
        (∀ r, r ∈ inserted ↔ r ∈ s'.policies.rows ∧ r ∉ s.policies.rows) ∧
        changes = ⟨inserted.length, removed.length⟩ ∧
        s'.audit = s.audit ++ removed.map (policyDeletedRow now) ++ inserted.map (policyCreatedRow now)) ∧
      ∀ existing' ids' now', existing'.Perm (managedPolicies s') →
        reconcilePolicies jsonb existing' ids' now' desired s' = .ok (s', ⟨0, 0⟩) := by
  obtain ⟨m, hm⟩ : ∃ m, m = greedy rowKey Prod.fst existing (desired.map fun p => (policyKey p, p)) := ⟨_, rfl⟩
  have hwanted : (desired.map fun p => (policyKey p, p)).map Prod.fst = desired.map policyKey := by
    simp only [List.map_map, Function.comp_def]
  have hleft : ∀ w ∈ m.left, ∀ id, rowKey (storedPolicy jsonb w.2 id now) = w.1 := by
    intro w hw id
    rw [hm] at hw
    obtain ⟨p, hp, rfl⟩ := List.mem_map.1 (mem_of_mem_greedy_left hw)
    exact rowKey_stored_config hjsonb hdesired h2000 hp id now
  constructor
  · intro ids hinj hfresh
    have hlen : m.left.length ≤ desired.length := by
      have hle := (@greedy_keys _ _ _ _ rowKey Prod.fst existing (desired.map fun p => (policyKey p, p))).length_eq
      rw [← hm] at hle
      simp only [List.length_append, List.length_map] at hle
      omega
    rw [reconcilePolicies, matchPolicies_eq, ← hm]
    refine insertPolicies_ok (fun i hi j hj => hinj i (Nat.lt_of_lt_of_le hi hlen) j (Nat.lt_of_lt_of_le hj hlen)) ?_
    intro i hi r hr
    rw [(foldl_deletePolicy now _ s).1] at hr
    exact hfresh i (Nat.lt_of_lt_of_le hi hlen) r (List.mem_filter.1 hr).1
  · intro ids s' changes h
    obtain ⟨hrows, hs', hch⟩ := reconcilePolicies_eq_ok hm h
    have hins : ∀ r ∈ insertedRows jsonb now m.left ids, r.managedByConfig = true := fun r => insertedRows_managed
    -- the managed rows afterwards: those that found a rule, and the inserted ones
    have hkeys : ((managedPolicies s').map rowKey).Perm (desired.map policyKey) := by
      have hman : managedPolicies s' = ((managedPolicies s).filter fun r =>
          !(m.unmatched.map (·.id)).contains r.id) ++ insertedRows jsonb now m.left ids := by
        rw [managedPolicies, hrows, List.filter_append, List.filter_eq_self.2 hins, managedPolicies, List.filter_filter,
          List.filter_filter]
        simp only [Bool.and_comm]
      rw [hman, List.map_append, insertedRows_keys hleft, ← hwanted]
      exact (((managed_kept hm hscan).map rowKey).append_right _).trans (hm ▸ greedy_keys existing _)
    refine ⟨hkeys, ?_, ?_, ?_, ?_⟩
    · intro r hr hcount
      have hrow := (mem_managed.1 hr).1
      rw [hrows]
      refine List.mem_append_left _ (List.mem_filter.2 ⟨hrow, ?_⟩)
      have hkept : r ∉ m.unmatched := by
        intro hun
        rw [hm] at hun
        have hlt := greedy_kept_of_count hun
        rw [hwanted, (hscan.map rowKey).count_eq] at hlt
        omega
      simpa using fun hc => hkept ((contains_unmatched hm hscan hrow).1 hc)
    · exact unmanaged_unchanged hm hscan hrows hins
    · have hdisjoint : ∀ r ∈ m.unmatched, r ∉ insertedRows jsonb now m.left ids := by
        -- no rule is left for a row that found none
        intro r hr hin
        have hkey := List.mem_map_of_mem (f := rowKey) hin
        rw [insertedRows_keys hleft] at hkey
        rw [hm] at hr hkey
        exact greedy_left_not_unmatched hr hkey
      have hnodup := hrows ▸ nodup_policies s'
      exact ⟨m.unmatched, insertedRows jsonb now m.left ids, unmatched_nodup hm hscan, (List.nodup_append.1 hnodup).2.1,
        fun r => mem_unmatched_iff hm hscan hrows hdisjoint, fun r => mem_added_iff hm hscan hrows hdisjoint, hch,
        by rw [hs']⟩
    · intro existing' ids' now' hscan'
      exact reconcilePolicies_of_perm ((hscan'.map rowKey).trans hkeys) ids' now' s'

/-- A rule that ends within a microsecond. -/
def nightly : PolicyConfig :=
  { denyPath "/admin" with notAfter := some ⟨1767225600 * 10 ^ 9 + 123456789, by decide, by decide⟩ }

/-- A managed row that no rule asks for. -/
def staleRow : PolicyRow :=
  ⟨4, none, some "deploy-key", none, "brokered", "deny", 9, .arr [], [], [], none, none, none, "config",
    DateTime.ofSeconds 0, true⟩

def staleStore : Store := { Store.empty with policies := Table.empty.insert staleRow }

theorem reconcilePolicies_diff_nightly : ∃ desired s' changes,
    [nightly, nightly].mapM (PolicyConfig.toNewPolicy plainUrl) = .ok desired ∧
    reconcilePolicies id [staleRow] (fun n => Fin.ofNat _ n) (DateTime.ofSeconds 1) desired staleStore =
      .ok (s', changes) ∧
    ((managedPolicies s').map rowKey).Perm (desired.map policyKey) ∧
    reconcilePolicies id (managedPolicies s') (fun n => Fin.ofNat _ n) (DateTime.ofSeconds 2) desired s' =
      .ok (s', ⟨0, 0⟩) := by
  have hok : (nightly.toNewPolicy plainUrl).toOption.isSome = true := by decide +kernel
  cases hp : nightly.toNewPolicy plainUrl with
  | error e => rw [hp] at hok; cases hok
  | ok p =>
      have hnot : p.notAfter = nightly.notAfter := by
        have heval : (nightly.toNewPolicy plainUrl).toOption.map (·.notAfter) = some nightly.notAfter := by decide +kernel
        rw [hp] at heval
        exact Option.some.inj heval
      have hdesired : [nightly, nightly].mapM (PolicyConfig.toNewPolicy plainUrl) = .ok [p, p] := by
        simp only [List.mapM_cons, List.mapM_nil, hp]
        rfl
      have h2000 : ∀ q ∈ [p, p], ∀ t, q.notAfter = some t → pgEpoch ≤ t := by
        intro q hq t ht
        have hqp : q = p := by simpa using hq
        rw [hqp, hnot] at ht
        cases ht
        decide
      have hrows : staleStore.policies.rows = [staleRow] := by rfl
      have hscan : [staleRow].Perm (managedPolicies staleStore) := by
        rw [managedPolicies, hrows]
        exact List.Perm.refl _
      obtain ⟨hex, hrun⟩ :=
        @reconcilePolicies_diff plainUrl id (fun _ => rfl) _ _ hdesired h2000 _ _ hscan (DateTime.ofSeconds 1)
      have hinj : ∀ i < 2, ∀ j < 2, Fin.ofNat (2 ^ 128) i = Fin.ofNat (2 ^ 128) j → i = j := by decide
      have hfresh : ∀ i < 2, ∀ r ∈ staleStore.policies.rows, r.id ≠ Fin.ofNat (2 ^ 128) i := by
        rw [hrows]
        decide
      obtain ⟨⟨s', changes⟩, hres⟩ := hex (fun n => Fin.ofNat _ n) hinj hfresh
      obtain ⟨hkeys, -, -, -, hagain⟩ := hrun _ _ _ hres
      exact ⟨[p, p], s', changes, hdesired, hres, hkeys, hagain _ _ _ (List.Perm.refl _)⟩

end Keychute.Reconcile
