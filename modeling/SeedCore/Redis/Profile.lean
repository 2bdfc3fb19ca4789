import SeedCore.Lib.Bytes
import SeedCore.Lib.OrderedSet
import Mathlib.Algebra.BigOperators.Group.List.Basic
import Mathlib.Algebra.Ring.Int.Defs

/-!
# The key profile

`GetProfileAndReset` of `RedisMgr.cpp` ranks the keys of a profile by way of a `std::set`, lists
the first twenty, and prints the sum of all counts.  The comparison of the set orders by count and
then by key, so it tells any two keys apart.  The sum goes through a signed 64-bit integer.

## Main definitions

* `KeyProfileNode.lt` — `KeyProfileNode::operator<`.
* `getProfileAndReset` — the report.
* `TopKeys m nodes` — the nodes are the first twenty of the profile.
* `getProfileAndReset_topKeys` — what the report says.
-/

namespace SeedCore.Redis

/-- `REDIS_KEY_TOP_COUNT` -/
def redisKeyTopCount : ℕ := 20

/-- `KeyProfileMap`, with its entries in the order of an iteration, which can be any. -/
structure KeyProfileMap where
  entries : List (Bytes × ℤ)
  nodup_keys : (entries.map Prod.fst).Nodup
  /-- The counts are signed 32-bit integers. -/
  count_bounds : ∀ e ∈ entries, -2147483648 ≤ e.2 ∧ e.2 < 2147483648

/-- `KeyProfileNode` -/
structure KeyProfileNode where
  iCount : ℤ
  strKey : Bytes
  deriving DecidableEq, Repr

/-- `KeyProfileNode::operator<` -/
def KeyProfileNode.lt (node stVal : KeyProfileNode) : Prop :=
  if node.iCount = stVal.iCount then node.strKey > stVal.strKey else node.iCount > stVal.iCount

instance KeyProfileNode.decidableLt : DecidableRel KeyProfileNode.lt := fun node stVal =>
  inferInstanceAs (Decidable
    (if node.iCount = stVal.iCount then node.strKey > stVal.strKey else node.iCount > stVal.iCount))

/-! ## The comparison -/

theorem KeyProfileNode.lt_iff {a b : KeyProfileNode} :
    a.lt b ↔ b.iCount < a.iCount ∨ a.iCount = b.iCount ∧ b.strKey < a.strKey := by
  unfold KeyProfileNode.lt
  by_cases heq : a.iCount = b.iCount
  · simp [heq]
  · simp [heq]

/-- **`operator<` is a strict total order**: two nodes neither of which precedes the other have
the same count and the same key. -/
instance KeyProfileNode.isStrictTotalOrder : IsStrictTotalOrder KeyProfileNode KeyProfileNode.lt where
  irrefl := by
    intro a h
    rcases KeyProfileNode.lt_iff.mp h with h | h
    · omega
    · exact lt_irrefl _ h.2
  trans := by
    intro a b c hab hbc
    rw [KeyProfileNode.lt_iff] at *
    rcases hab with hab | ⟨hab, hkey⟩
    · exact .inl (by omega)
    · rcases hbc with hbc | ⟨hbc, hkey'⟩
      · exact .inl (by omega)
      · exact .inr ⟨hab.trans hbc, lt_trans hkey' hkey⟩
  trichotomous := by
    intro a b hab hba
    rw [KeyProfileNode.lt_iff, not_or] at hab hba
    have hcount : a.iCount = b.iCount := by omega
    have hab' : ¬b.strKey < a.strKey := fun h => hab.2 ⟨hcount, h⟩
    have hba' : ¬a.strKey < b.strKey := fun h => hba.2 ⟨hcount.symm, h⟩
    have hkey : a.strKey = b.strKey := le_antisymm (not_lt.mp hab') (not_lt.mp hba')
    cases a
    cases b
    simp_all

/-! ## The report -/

/-- One iteration of the first loop. -/
def profileStep (acc : ℤ × OrderedSet KeyProfileNode.lt) (iter : Bytes × ℤ) :
    ℤ × OrderedSet KeyProfileNode.lt :=
  (toInt64 (acc.1 + iter.2), acc.2.insert ⟨iter.2, iter.1⟩)

/-- What the second loop appends for a node. -/
def profileLine (node : KeyProfileNode) : Bytes :=
  ascii "\n Key:" ++ node.strKey ++ ascii " Use Count:" ++ decInt node.iCount

/-- The listing and the total. -/
def profileText (nodes : List KeyProfileNode) (iCount : ℤ) : Bytes :=
  nodes.flatMap profileLine ++ ascii "\nTotal Key Count:" ++ decInt iCount

/-- `GetProfileAndReset` -/
def getProfileAndReset (mapKeyProfile : KeyProfileMap) : Bytes :=
  let acc := mapKeyProfile.entries.foldl profileStep (0, .empty)
  profileText (acc.2.elems.take redisKeyTopCount) acc.1

/-- The counts of a profile. -/
def KeyProfileMap.counts (m : KeyProfileMap) : List ℤ := m.entries.map Prod.snd

/-- The nodes of a profile. -/
def KeyProfileMap.nodes (m : KeyProfileMap) : List KeyProfileNode :=
  m.entries.map fun e => ⟨e.2, e.1⟩

/-- The nodes are the first twenty keys of the profile, in the order of `operator<`. -/
structure TopKeys (m : KeyProfileMap) (nodes : List KeyProfileNode) : Prop where
  length_eq : nodes.length = min 20 m.entries.length
  distinct : (nodes.map (·.strKey)).Nodup
  own_count : ∀ node ∈ nodes, (node.strKey, node.iCount) ∈ m.entries
  ordered : nodes.Pairwise KeyProfileNode.lt
  top : ∀ key count, (key, count) ∈ m.entries → (∀ node ∈ nodes, node.strKey ≠ key) →
    ∀ node ∈ nodes, ¬KeyProfileNode.lt ⟨count, key⟩ node

/-- A signed 64-bit integer. -/
def FitsInt64 (v : ℤ) : Prop := -9223372036854775808 ≤ v ∧ v < 9223372036854775808

/-! ## The sum -/

theorem toInt64_of_fits {v : ℤ} (h : FitsInt64 v) : toInt64 v = v := by
  obtain ⟨hlo, hhi⟩ := h
  rw [toInt64_eq]
  omega

/-- Reducing at every step is reducing the sum. -/
theorem foldl_profileStep (entries : List (Bytes × ℤ)) (sum : ℤ)
    (set : OrderedSet KeyProfileNode.lt) :
    entries.foldl profileStep (toInt64 sum, set) =
      (toInt64 (sum + (entries.map Prod.snd).sum),
        set.insertAll (entries.map fun e => ⟨e.2, e.1⟩)) := by
  induction entries generalizing sum set with
  | nil => simp [OrderedSet.insertAll]
  | cons e entries ih =>
      have hstep : profileStep (toInt64 sum, set) e =
          (toInt64 (sum + e.2), set.insert ⟨e.2, e.1⟩) := by
        simp only [profileStep, Prod.mk.injEq, and_true, toInt64_eq]
        omega
      rw [List.foldl_cons, hstep, ih]
      simp [OrderedSet.insertAll, add_assoc]

/-- Counts that are signed 32-bit integers have a sum of at most so much. -/
theorem sum_bounds {counts : List ℤ} (h : ∀ c ∈ counts, -2147483648 ≤ c ∧ c < 2147483648) :
    -2147483648 * (counts.length : ℤ) ≤ counts.sum ∧
      counts.sum ≤ 2147483647 * (counts.length : ℤ) := by
  induction counts with
  | nil => simp
  | cons c counts ih =>
      have hc := h c List.mem_cons_self
      have htail := ih fun c' hc' => h c' (List.mem_cons_of_mem _ hc')
      simp only [List.sum_cons, List.length_cons]
      omega

/-- **Up to `2 ^ 32` keys** no running sum leaves the range. -/
theorem KeyProfileMap.fits_of_length_le {m : KeyProfileMap} (h : m.entries.length ≤ 4294967296)
    (k : ℕ) : FitsInt64 (m.counts.take k).sum := by
  have hbounds : ∀ c ∈ m.counts.take k, -2147483648 ≤ c ∧ c < 2147483648 := by
    intro c hc
    obtain ⟨e, he, rfl⟩ := List.mem_map.mp (List.mem_of_mem_take hc)
    exact m.count_bounds e he
  have hsum := sum_bounds hbounds
  have hlen : (m.counts.take k).length ≤ m.entries.length := by
    simp only [KeyProfileMap.counts, List.length_take, List.length_map]
    omega
  constructor <;> omega

/-! ## What the report says -/

/-- The set that the first loop builds. -/
def KeyProfileMap.profileSet (m : KeyProfileMap) : OrderedSet KeyProfileNode.lt :=
  OrderedSet.empty.insertAll m.nodes

/-- The set that the first loop builds, and the sum. -/
theorem getProfileAndReset_eq (m : KeyProfileMap) :
    getProfileAndReset m =
      profileText (m.profileSet.elems.take 20) (toInt64 m.counts.sum) := by
  have h := foldl_profileStep m.entries 0 .empty
  have hzero : toInt64 0 = 0 := by decide
  rw [hzero, zero_add] at h
  rw [getProfileAndReset, h]
  rfl

theorem KeyProfileMap.nodes_keys (m : KeyProfileMap) :
    m.nodes.map (·.strKey) = m.entries.map Prod.fst := by
  simp [KeyProfileMap.nodes]

/-- The set has the nodes of the profile, all of them. -/
theorem KeyProfileMap.profileSet_perm (m : KeyProfileMap) : m.profileSet.elems.Perm m.nodes := by
  have hnodup : m.nodes.Nodup := by
    have hkeys : (m.nodes.map (·.strKey)).Nodup := by
      rw [m.nodes_keys]
      exact m.nodup_keys
    exact hkeys.of_map
  have hperm := OrderedSet.insertAll_perm (r := KeyProfileNode.lt) (s := .empty) (l := m.nodes)
  exact hperm hnodup

/-- **The ranking.**  The first twenty elements of the set are the top keys. -/
theorem KeyProfileMap.topKeys (m : KeyProfileMap) : TopKeys m (m.profileSet.elems.take 20) := by
  have hperm := m.profileSet_perm
  have hmem : ∀ node, node ∈ m.nodes ↔ (node.strKey, node.iCount) ∈ m.entries := by
    intro node
    simp only [KeyProfileMap.nodes, List.mem_map, Prod.exists]
    constructor
    · rintro ⟨key, count, he, rfl⟩
      exact he
    · intro he
      exact ⟨_, _, he, rfl⟩
  refine ⟨?_, ?_, ?_, ?_, ?_⟩
  · rw [List.length_take, hperm.length_eq]
    simp [KeyProfileMap.nodes]
  · have hkeys : (m.nodes.map (·.strKey)).Nodup := by
      rw [m.nodes_keys]
      exact m.nodup_keys
    have hall := ((hperm.map (·.strKey)).nodup_iff).mpr hkeys
    exact hall.sublist ((List.take_sublist 20 _).map _)
  · intro node hnode
    exact (hmem node).mp (hperm.mem_iff.mp (List.mem_of_mem_take hnode))
  · exact m.profileSet.sorted.sublist (List.take_sublist 20 _)
  · intro key count he hout node hnode hlt
    have hin := hperm.mem_iff.mpr ((hmem ⟨count, key⟩).mpr he)
    have hnot : ⟨count, key⟩ ∉ m.profileSet.elems.take 20 := by
      intro hlisted
      exact hout _ hlisted rfl
    have hbefore := m.profileSet.take_precedes 20 hnode hin hnot
    exact asymm hlt hbefore

/-- **The report lists the top keys**, whatever the order of the iteration.  The total is the sum
of the counts as long as no running sum leaves the signed 64-bit integers, and up to `2 ^ 32` keys
none does. -/
theorem getProfileAndReset_topKeys (m : KeyProfileMap) :
    ∃ nodes total, getProfileAndReset m = profileText nodes total ∧ TopKeys m nodes ∧
      ((∀ k, FitsInt64 (m.counts.take k).sum) → total = m.counts.sum) ∧
      (m.entries.length ≤ 4294967296 → total = m.counts.sum) := by
  have hfits : (∀ k, FitsInt64 (m.counts.take k).sum) → toInt64 m.counts.sum = m.counts.sum := by
    intro h
    have hall := h m.counts.length
    rw [List.take_length] at hall
    exact toInt64_of_fits hall
  exact ⟨_, _, getProfileAndReset_eq m, m.topKeys, hfits, fun hlen => hfits (m.fits_of_length_le hlen)⟩

/-! ## A profile whose total overflows -/

/-- The numbers below `n` as keys, each with the largest count. -/
def fullProfile (n : ℕ) : KeyProfileMap where
  entries := (List.range n).map fun i => (dec i, 2147483647)
  nodup_keys := by
    rw [List.map_map]
    exact List.Nodup.map dec_injective List.nodup_range
  count_bounds := by
    intro e he
    obtain ⟨i, -, rfl⟩ := List.mem_map.mp he
    omega

theorem fullProfile_sum (n : ℕ) : (fullProfile n).counts.sum = 2147483647 * (n : ℤ) := by
  have hconst : (fullProfile n).counts = List.replicate n 2147483647 := by
    simp [fullProfile, KeyProfileMap.counts, Function.comp_def]
  rw [hconst, List.sum_replicate]
  simp [mul_comm]

theorem colon_notMem_decInt (v : ℤ) : 58 ∉ decInt v := by
  intro h
  have hdigit : ∀ n, 58 ∉ dec n := by
    intro n hn
    exact absurd (isDigit_of_mem_dec hn) (by decide)
  cases v with
  | ofNat n => exact hdigit n h
  | negSucc n =>
      rcases List.mem_cons.mp h with h | h
      · exact absurd h (by decide)
      · exact hdigit (n + 1) h

/-- The total can be read off the end of the report. -/
theorem profileText_total {nodes nodes' : List KeyProfileNode} {total total' : ℤ}
    (h : profileText nodes total = profileText nodes' total') : total = total' := by
  have hlast : ∀ (nodes : List KeyProfileNode) (total : ℤ),
      (profileText nodes total).reverse.takeWhile (· ≠ 58) = (decInt total).reverse := by
    intro nodes total
    have hdigits : ∀ b ∈ (decInt total).reverse, (decide (b ≠ 58)) = true := by
      intro b hb
      refine decide_eq_true ?_
      rintro rfl
      exact colon_notMem_decInt total (List.mem_reverse.mp hb)
    have hsplit : profileText nodes total =
        (nodes.flatMap profileLine ++ ascii "\nTotal Key Count") ++ 58 :: decInt total := by
      have hcolon : ascii "\nTotal Key Count:" = ascii "\nTotal Key Count" ++ [58] := by decide
      simp only [profileText, hcolon, List.append_assoc, List.singleton_append]
    rw [hsplit, List.reverse_append, List.reverse_cons, List.append_assoc,
      List.takeWhile_append_of_pos hdigits]
    simp
  have hreverse := hlast nodes total
  rw [h, hlast nodes' total'] at hreverse
  exact decInt_injective (List.reverse_injective hreverse.symm)

/-- With three keys more than `2 ^ 32`, each counted as often as possible, the total that is
printed is not the sum. -/
theorem getProfileAndReset_overflow :
    ¬∃ nodes, getProfileAndReset (fullProfile 4294967299) =
      profileText nodes (fullProfile 4294967299).counts.sum := by
  rintro ⟨nodes, h⟩
  rw [getProfileAndReset_eq] at h
  have htotal := profileText_total h
  rw [fullProfile_sum, toInt64_eq] at htotal
  exact absurd htotal (by decide)

end SeedCore.Redis
