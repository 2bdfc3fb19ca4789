import SeedCore.Lib.Bytes
import SeedCore.Lib.Run

/-!
# Result sets

`MysqlResult::Init` and the rows it hands out, from `MysqlBase.h` and `MysqlBase.cpp`,
over the part of libmysqlclient they use.  A stored result owns its rows and one array
of column lengths; `mysql_fetch_row` moves the cursor, and `mysql_fetch_lengths` fills
that array for the current row and returns a pointer to it.  A `FiledRow` keeps both
pointers, so what `GetBuff` reads depends on what the array holds when it is called.

## Main definitions

* `ResultSet`, `MysqlRes` — what the server sent, and `MYSQL_RES`.
* `FiledRow`, `MysqlResult`, `MysqlResult.init` — the classes.
* `CellsReported` — every cell can be read back with its own length.
* `init_cellsReported_iff` — the result sets of which this is true.
-/

namespace SeedCore.Mysql

/-- Why a modelled call has no result. -/
inductive Stuck
  /-- It waits for an outcome that the script does not hold. -/
  | blocked
  /-- It reads outside the object it was given. -/
  | outOfBounds
  /-- It divides by zero. -/
  | divByZero
  /-- It exceeds the range of a signed integer. -/
  | overflow
  deriving DecidableEq, Repr

/-- A cell: NULL, or its bytes. -/
abbrev Cell := Option Bytes

/-- A result set as the server sent it; `field_count` is an `unsigned int`. -/
structure ResultSet where
  fieldCount : ℕ
  fieldCount_lt : fieldCount < 4294967296
  rows : List (List Cell)
  width : ∀ row ∈ rows, row.length = fieldCount

/-- Cell `j` of row `i`. -/
def ResultSet.cell? (set : ResultSet) (i j : ℕ) : Option Cell := do (← set.rows[i]?)[j]?

/-- The column lengths of a row; NULL has length zero. -/
def fieldLengths (row : List Cell) : List ℕ := row.map fun cell => (cell.map List.length).getD 0

/-- `MYSQL_RES`, as far as it is used: the stored rows, the cursor, the current row and
the one array of column lengths. -/
structure MysqlRes where
  set : ResultSet
  dataCursor : ℕ := 0
  currentRow : Option ℕ := none
  lengths : List ℕ := []

/-- `mysql_fetch_row`: a `MYSQL_ROW` is the index of the row it points to. -/
def mysqlFetchRow (res : MysqlRes) : Option ℕ × MysqlRes :=
  if res.dataCursor < res.set.rows.length then
    (some res.dataCursor,
      { res with dataCursor := res.dataCursor + 1, currentRow := some res.dataCursor })
  else (none, { res with currentRow := none })

/-- A pointer to the array of column lengths of the result. -/
inductive LengthsPtr
  | lengths
  deriving DecidableEq, Repr

/-- `mysql_fetch_lengths`: fill the array for the current row. -/
def mysqlFetchLengths (res : MysqlRes) : Option LengthsPtr × MysqlRes :=
  match res.currentRow.bind (res.set.rows[·]?) with
  | none => (none, res)
  | some row => (some .lengths, { res with lengths := fieldLengths row })

/-- `FiledRow` -/
structure FiledRow where
  row : ℕ
  rowFieldLengths : Option LengthsPtr
  filedCount : ℤ
  deriving DecidableEq, Repr

/-- `MysqlResult` -/
structure MysqlResult where
  result : Option MysqlRes := none
  fieldCount : ℤ := 0
  rows : List FiledRow := []

/-- `GetBuff`, with the result that both pointers lead into.  What is returned is the
cell that the pointer leads to, and the value of `buffLen`. -/
def FiledRow.getBuff (row : FiledRow) (res : MysqlRes) (index : ℤ) :
    Except Stuck (Option (Bytes × ℤ)) :=
  if index < row.filedCount then
    if index < 0 then .error .outOfBounds
    else match res.set.cell? row.row index.toNat with
      | none => .error .outOfBounds
      | some none => .ok none
      | some (some cell) =>
          match row.rowFieldLengths.bind fun _ => res.lengths[index.toNat]? with
          | none => .error .outOfBounds
          | some len => .ok (some (cell, toInt32 len))
  else .ok none

namespace MysqlResult

/-- `RowCount` -/
def rowCount (r : MysqlResult) : ℤ := toInt32 r.rows.length

/-- `GetRow` -/
def getRow (r : MysqlResult) (index : ℤ) : Except Stuck (Option FiledRow) :=
  if index < toInt32 r.rows.length then
    if index < 0 then .error .outOfBounds
    else match r.rows[index.toNat]? with
      | none => .error .outOfBounds
      | some row => .ok (some row)
  else .ok none

/-- `GetRow(i)->GetBuff(j, len)` -/
def getBuff (r : MysqlResult) (i j : ℤ) : Except Stuck (Option (Bytes × ℤ)) := do
  match ← r.getRow i, r.result with
  | some row, some res => row.getBuff res j
  | _, _ => .error .outOfBounds

/-- The `while (row)` loop of `Init`; every iteration moves past a row, which is what
`fuel` counts. -/
def fetchLoop (fieldCount : ℤ) :
    ℕ → MysqlRes → List FiledRow → Except Stuck (MysqlRes × List FiledRow)
  | 0, _, _ => .error .blocked
  | fuel + 1, res, rows =>
      match mysqlFetchRow res with
      | (none, res) => .ok (res, rows)
      | (some row, res) =>
          let (curRowFieldLengths, res) := mysqlFetchLengths res
          fetchLoop fieldCount fuel res (rows ++ [⟨row, curRowFieldLengths, fieldCount⟩])

/-- `Init`, on what `mysql_store_result` returned. -/
def init : Option ResultSet → Except Stuck MysqlResult
  | none => .ok {}
  | some set => do
      let fieldCount := toInt32 set.fieldCount
      let (res, rows) ← fetchLoop fieldCount (set.rows.length + 1) { set := set } []
      .ok { result := some res, fieldCount := fieldCount, rows := rows }

/-! ## What `Init` leaves -/

/-- The lengths of the last row, if there is one. -/
def lastLengths (rows : List (List Cell)) (lengths : List ℕ) : List ℕ :=
  (rows.getLast?.map fieldLengths).getD lengths

/-- The rows that `Init` makes of those from number `n` on. -/
def filedRows (fieldCount : ℤ) (n k : ℕ) : List FiledRow :=
  (List.range' n k).map fun i => ⟨i, some .lengths, fieldCount⟩

/-- **The loop.**  It makes one row for every row of the result, all with a pointer to
one array, which at the end holds the lengths of the last row. -/
theorem fetchLoop_eq (fieldCount : ℤ) {fuel k : ℕ} (res : MysqlRes) (rows : List FiledRow)
    (hk : res.dataCursor + k = res.set.rows.length) (hfuel : k < fuel) :
    fetchLoop fieldCount fuel res rows = .ok
      ({ res with
          dataCursor := res.set.rows.length
          currentRow := none
          lengths := lastLengths (res.set.rows.drop res.dataCursor) res.lengths },
        rows ++ filedRows fieldCount res.dataCursor k) := by
  induction k generalizing fuel res rows with
  | zero =>
      obtain ⟨fuel, rfl⟩ : ∃ n, fuel = n + 1 := ⟨fuel - 1, by omega⟩
      have hend : res.set.rows.length = res.dataCursor := by omega
      simp [fetchLoop, mysqlFetchRow, hend, filedRows, lastLengths, List.drop_of_length_le]
  | succ k ih =>
      obtain ⟨fuel, rfl⟩ : ∃ n, fuel = n + 1 := ⟨fuel - 1, by omega⟩
      have hlt : res.dataCursor < res.set.rows.length := by omega
      have hdrop := List.drop_eq_getElem_cons hlt
      simp only [fetchLoop, mysqlFetchRow, if_pos hlt, mysqlFetchLengths, Option.bind_some,
        List.getElem?_eq_getElem hlt]
      rw [ih _ _ (by dsimp only; omega) (by omega)]
      refine congrArg Except.ok (Prod.ext ?_ ?_)
      · simp only [lastLengths, hdrop, List.getLast?_cons]
        cases (res.set.rows.drop (res.dataCursor + 1)).getLast? <;> rfl
      · simp [filedRows, List.range'_succ]

/-- What `Init` makes of a result set. -/
theorem init_eq (set : ResultSet) :
    init (some set) = .ok {
      result := some {
        set := set
        dataCursor := set.rows.length
        lengths := lastLengths set.rows [] }
      fieldCount := toInt32 set.fieldCount
      rows := filedRows (toInt32 set.fieldCount) 0 set.rows.length } := by
  have h := fetchLoop_eq (toInt32 set.fieldCount) { set := set } [] (Nat.zero_add _)
    (Nat.lt_succ_self set.rows.length)
  rw [init, h]
  rfl

end MysqlResult

/-! ## Reading the cells back -/

/-- Every cell in range is reported: NULL as null, and bytes with their own length. -/
structure CellsReported (set : ResultSet) (r : MysqlResult) : Prop where
  rowCount_eq : r.rowCount = set.rows.length
  getBuff_eq : ∀ i j cell, set.cell? i j = some cell → j < 2147483648 →
    r.getBuff i j = .ok (cell.map fun bytes => (bytes, (bytes.length : ℤ)))

/-- The length of column `j` in the last row. -/
def ResultSet.lastLength (set : ResultSet) (j : ℕ) : ℕ :=
  ((MysqlResult.lastLengths set.rows [])[j]?).getD 0

theorem ResultSet.cell?_eq_some {set : ResultSet} {i j : ℕ} {cell : Cell}
    (h : set.cell? i j = some cell) : i < set.rows.length ∧ j < set.fieldCount := by
  simp only [ResultSet.cell?, Option.bind_eq_bind, Option.bind_eq_some_iff] at h
  obtain ⟨row, hrow, hcell⟩ := h
  have hwidth := set.width row (List.mem_of_getElem? hrow)
  have hi := (List.getElem?_eq_some_iff.mp hrow).1
  have hj := (List.getElem?_eq_some_iff.mp hcell).1
  omega

/-- The array has an entry for every column as soon as there is a row. -/
theorem ResultSet.lengths_getElem? {set : ResultSet} {i j : ℕ} {cell : Cell}
    (h : set.cell? i j = some cell) :
    (MysqlResult.lastLengths set.rows [])[j]? = some (set.lastLength j) := by
  obtain ⟨hi, hj⟩ := set.cell?_eq_some h
  have hne : set.rows ≠ [] := List.ne_nil_of_length_pos (by omega)
  have hwidth := set.width _ (List.getLast_mem hne)
  have hlt : j < (MysqlResult.lastLengths set.rows []).length := by
    simp only [MysqlResult.lastLengths, List.getLast?_eq_some_getLast hne, Option.map_some,
      Option.getD_some, fieldLengths, List.length_map]
    omega
  simp [ResultSet.lastLength, List.getElem?_eq_getElem hlt]

/-- The length of a column in the last row is that of its cell there. -/
theorem ResultSet.exists_lastCell {set : ResultSet} {i j : ℕ} {cell : Cell}
    (h : set.cell? i j = some cell) :
    ∃ k last, set.cell? k j = some last ∧ set.lastLength j = (last.map List.length).getD 0 := by
  obtain ⟨hi, hj⟩ := set.cell?_eq_some h
  have hne : set.rows ≠ [] := List.ne_nil_of_length_pos (by omega)
  have hwidth := set.width _ (List.getLast_mem hne)
  have hlt : j < (set.rows.getLast hne).length := by omega
  refine ⟨set.rows.length - 1, (set.rows.getLast hne)[j], ?_, ?_⟩
  · rw [ResultSet.cell?, ← List.getLast?_eq_getElem?, List.getLast?_eq_some_getLast hne]
    exact List.getElem?_eq_getElem hlt
  · simp [ResultSet.lastLength, MysqlResult.lastLengths, List.getLast?_eq_some_getLast hne,
      fieldLengths, List.getElem?_eq_getElem hlt]

/-- **What `GetBuff` gives for a cell**: its bytes, with the length of its column in the
last row. -/
theorem MysqlResult.getBuff_init {set : ResultSet} {r : MysqlResult}
    (hinit : MysqlResult.init (some set) = .ok r) (hrows : set.rows.length < 2147483648)
    {i j : ℕ} {cell : Cell} (h : set.cell? i j = some cell) :
    r.getBuff i j = .ok (if (j : ℤ) < toInt32 set.fieldCount then
      cell.map fun bytes => (bytes, toInt32 (set.lastLength j)) else none) := by
  rw [init_eq] at hinit
  cases hinit
  obtain ⟨hi, hj⟩ := set.cell?_eq_some h
  have hlen := set.lengths_getElem? h
  have hrow : (filedRows (toInt32 set.fieldCount) 0 set.rows.length)[i]?
      = some ⟨i, some .lengths, toInt32 set.fieldCount⟩ := by
    simp [filedRows, hi]
  have hsize : (filedRows (toInt32 set.fieldCount) 0 set.rows.length).length
      = set.rows.length := by simp [filedRows]
  simp only [getBuff, getRow, hsize, toInt32_natCast hrows]
  rw [if_pos (by omega), if_neg (by omega), Int.toNat_natCast, hrow]
  simp only [bind, Except.bind, FiledRow.getBuff]
  split
  · rw [if_neg (by omega), Int.toNat_natCast, h]
    cases cell with
    | none => rfl
    | some bytes => simp only [Option.bind_some, hlen, Option.map_some]
  · rfl

/-- In every column the cells that are not NULL have one length, that of the last row. -/
def ResultSet.Uniform (set : ResultSet) : Prop :=
  set.rows.length < 2147483648 ∧ ∀ i j bytes, set.cell? i j = some (some bytes) → j < 2147483648 →
    set.fieldCount < 2147483648 ∧ bytes.length < 2147483648 ∧ bytes.length = set.lastLength j

/-- When a cell is reported its column is below the field count that `Init` keeps, and the
length of the column in the last row is its own, up to the cast. -/
theorem CellsReported.length_eq {set : ResultSet} {r : MysqlResult}
    (hinit : MysqlResult.init (some set) = .ok r) (hrows : set.rows.length < 2147483648)
    (h : CellsReported set r) {i j : ℕ} {bytes : Bytes}
    (hcell : set.cell? i j = some (some bytes)) (hj : j < 2147483648) :
    (j : ℤ) < toInt32 set.fieldCount ∧ toInt32 (set.lastLength j) = bytes.length := by
  have heq := (MysqlResult.getBuff_init hinit hrows hcell).symm.trans
    (h.getBuff_eq i j _ hcell hj)
  split at heq
  · next hlt => exact ⟨hlt, congrArg Prod.snd (Option.some.inj (Except.ok.inj heq))⟩
  · cases heq

/-- **When the cells are reported.**  Every row keeps a pointer to the one array of
lengths, and the last row overwrites it; so the cells are reported exactly when every
length can be taken from there. -/
theorem init_cellsReported_iff (set : ResultSet) :
    ∃ r, MysqlResult.init (some set) = .ok r ∧ (CellsReported set r ↔ set.Uniform) := by
  refine ⟨_, MysqlResult.init_eq set, ?_⟩
  have hfield := set.fieldCount_lt
  have hsize : (MysqlResult.filedRows (toInt32 set.fieldCount) 0 set.rows.length).length
      = set.rows.length := by simp [MysqlResult.filedRows]
  constructor
  · intro h
    have hcount := h.rowCount_eq
    simp only [MysqlResult.rowCount, toInt32_eq] at hcount
    have hrows : set.rows.length < 2147483648 := by omega
    refine ⟨hrows, ?_⟩
    intro i j bytes hcell hj
    obtain ⟨hlt, hlen⟩ := h.length_eq (MysqlResult.init_eq set) hrows hcell hj
    -- the cell of the last row tells the length from what the cast makes of it
    obtain ⟨k, last, hlast, hlength⟩ := set.exists_lastCell hcell
    have hsmall : set.lastLength j < 2147483648 := by
      cases last with
      | none => simp [hlength]
      | some b =>
          obtain ⟨-, hown⟩ := h.length_eq (MysqlResult.init_eq set) hrows hlast hj
          simp only [Option.map_some, Option.getD_some] at hlength
          rw [hlength, toInt32_eq] at hown
          omega
    rw [toInt32_natCast hsmall] at hlen
    rw [toInt32_eq] at hlt
    omega
  · rintro ⟨hrows, huni⟩
    refine ⟨by rw [MysqlResult.rowCount, hsize, toInt32_natCast hrows], ?_⟩
    intro i j cell hcell hj
    rw [MysqlResult.getBuff_init (MysqlResult.init_eq set) hrows hcell]
    cases cell with
    | none => simp
    | some bytes =>
        obtain ⟨hcols, hlen, hlast⟩ := huni i j bytes hcell hj
        obtain ⟨-, hjlt⟩ := set.cell?_eq_some hcell
        rw [toInt32_natCast hcols, if_pos (by omega), ← hlast, toInt32_natCast hlen]
        rfl

/-- Two rows of one column: `a` is reported with the length of `abc`. -/
theorem not_cellsReported_twoRows : ∃ set r, MysqlResult.init (some set) = .ok r ∧
    set.rows = [[some (ascii "a")], [some (ascii "abc")]] ∧
    r.getBuff 0 0 = .ok (some (ascii "a", 3)) ∧ ¬CellsReported set r := by
  refine ⟨⟨1, by decide, [[some (ascii "a")], [some (ascii "abc")]], by decide⟩, _,
    MysqlResult.init_eq _, rfl, by decide, ?_⟩
  intro h
  have hcell := h.getBuff_eq 0 0 (some (ascii "a")) rfl (by decide)
  exact absurd hcell (by decide)

end SeedCore.Mysql
