import CoapsClient.Machine.Buffer
import CoapsClient.Model.Coap.Descriptions

/-! # The cells around and their order

`lte_neighbor_cell_meas`: the lines about a scan, and `append_result`, which appends a line to the text of the result. A
store outside of the buffer has no value. The cells have the fields that are shown. Locks and logs are left out.

The two loops of `lte_neighbor_cell_meas` that sort pointers to cells. The array of the pointers is on the stack, so a place
has no value before the first store. A pointer stays in the array of the cells that it was taken from.
-/

namespace CoapsClient.ModemCells

open Machine (put putAll textEnd)
open ShCmd (Text)
open CoapAppl (LteMode modemGetNetworkModeDescription decimal digits unsigned int32)

/-- `struct lte_lc_cell`. -/
structure LteLcCell where
  mcc : ℤ
  mnc : ℤ
  id : ℕ
  tac : ℕ
  earfcn : ℕ
  physCellId : ℕ
  rsrp : ℤ
  rsrq : ℤ
deriving DecidableEq, Repr

/-- `struct lte_lc_ncell`. -/
structure LteLcNcell where
  earfcn : ℕ
  physCellId : ℕ
  rsrp : ℤ
  rsrq : ℤ
deriving DecidableEq, Repr

/-- `struct lte_lc_cells_info`. -/
structure LteLcCellsInfo where
  currentCell : LteLcCell
  neighborCells : List LteLcNcell := []
  gciCells : List LteLcCell := []

/-- `LTE_LC_CELL_EUTRAN_ID_INVALID`. -/
def lteLcCellEutranIdInvalid : ℕ := 4294967295

/-- `MIN_QUALITY_DELTA`. -/
def minQualityDelta : ℤ := 15

/-- `lte_cell_quality`. -/
def lteCellQuality (cell : LteLcCell) : ℤ := cell.rsrp + cell.rsrq.tdiv 2

/-- `lte_ncell_quality`. -/
def lteNcellQuality (cell : LteLcNcell) : ℤ := cell.rsrp + cell.rsrq.tdiv 2

/-- `earfcn_to_band`. -/
def earfcnToBand : List ℤ :=
  [0, 600, 1200, 1950, 2400, 2650, 2750, 3450, 3800, 4150, 4750, 5010, 5180, 5280, 5380, 5480, 5730, 5850, 6000, 6150, 6450,
    6600, 7500, 7700, 8040, 8690, 9040, 9210, 9660, -1]

/-- The loop of `modem_get_band` over the rest of the table. -/
def bandFrom (earfcn : ℤ) (band : ℕ) : List ℤ → ℕ
  | first :: next :: borders =>
      if first ≤ earfcn then if next < 0 then 0 else bandFrom earfcn (band + 1) (next :: borders) else band
  | _ => band

/-- `modem_get_band`. -/
def modemGetBand (earfcn : ℤ) : ℕ := bandFrom earfcn 0 earfcnToBand

section Sorting

variable {Cell : Type} (quality : Cell → ℤ)

/-- The inner loop of the sorting: a cell passes those in front of it that are worse. The cells are in reverse order. -/
def place (cell : Cell) : List Cell → List Cell
  | [] => [cell]
  | last :: cells => if quality cell ≤ quality last then cell :: last :: cells else last :: place cell cells

/-- `gci_cells_sorted` and `neighbor_cells_sorted`. -/
def sorted (cells : List Cell) : List Cell := (cells.foldl (fun sorted cell => place quality cell sorted) []).reverse

end Sorting

/-- `%*s`. -/
def padded (width : ℕ) (text : Text) : Text := List.replicate (width - text.length) ' ' ++ text

/-- `%02d`. -/
def twoDigits (value : ℤ) : Text := if value < 0 then decimal value else digits 10 2 value.toNat

/-- `%08X`. -/
def hexId (id : ℕ) : Text := (digits 16 8 id).map Char.toUpper

/-- `RSRP`. -/
def rsrpText (rsrp : ℤ) : Text := decimal (rsrp - 140)

/-- `RSRQ`. -/
def rsrqText (rsrq : ℤ) : Text := decimal ((rsrq - 39).tdiv 2)

/-- `snprintf(line, sizeof(line), ..)`. -/
def line (text : Text) : Text := text.take 127

def headLine (mode : LteMode) (info : LteLcCellsInfo) : Text :=
  line (modemGetNetworkModeDescription mode ++ " neighbor cell measurements ".toList ++ unsigned info.neighborCells.length ++
    ['/'] ++ unsigned info.gciCells.length)

def currentLine (cell : LteLcCell) : Text :=
  line ("[*]: plmn ".toList ++ padded 3 (decimal cell.mcc) ++ twoDigits cell.mnc ++ ", tac 0x".toList ++ digits 16 4 cell.tac ++
    ", cell 0x".toList ++ hexId cell.id ++ ", band ".toList ++ unsigned (modemGetBand (int32 cell.earfcn)) ++
    ", earfnc ".toList ++ decimal (int32 cell.earfcn) ++ ", pid ".toList ++ unsigned cell.physCellId ++ ", rsrp ".toList ++
    rsrpText cell.rsrp ++ " dBm, rsrq ".toList ++ rsrqText cell.rsrq ++ " dB".toList)

/-- `mnc`. -/
def mncText (mnc : ℤ) : Text :=
  if 100 ≤ mnc ∧ mnc ≤ 999 then padded 3 (decimal mnc)
  else if 0 ≤ mnc ∧ mnc ≤ 99 then twoDigits mnc ++ [' ']
  else "xxx".toList

def gciLine (width : ℕ) (current : Bool) (index : ℕ) (cell : LteLcCell) : Text :=
  line (['[', if current then '*' else ' '] ++ padded width (unsigned index) ++ "]: ".toList ++ padded 3 (decimal cell.mcc) ++
    mncText cell.mnc ++ " 0x".toList ++ digits 16 4 cell.tac ++ " 0x".toList ++ hexId cell.id ++ "  ".toList ++
    padded 2 (unsigned (modemGetBand (int32 cell.earfcn))) ++ [' '] ++ padded 5 (decimal (int32 cell.earfcn)) ++ "  ".toList ++
    padded 3 (unsigned cell.physCellId) ++ "  ".toList ++ padded 4 (rsrpText cell.rsrp) ++ ['/'] ++
    padded 3 (rsrqText cell.rsrq))

def neighborLine (width index : ℕ) (cell : LteLcNcell) : Text :=
  line (['['] ++ padded width (unsigned index) ++ "]: ".toList ++ padded 2 (unsigned (modemGetBand (int32 cell.earfcn))) ++
    [' '] ++ padded 5 (decimal (int32 cell.earfcn)) ++ "  ".toList ++ padded 3 (unsigned cell.physCellId) ++ "  ".toList ++
    padded 4 (rsrpText cell.rsrp) ++ ['/'] ++ padded 3 (rsrqText cell.rsrq))

/-- `(unsigned long) MSEC_TO_SEC(time)`. -/
def seconds (time : ℤ) : Text := unsigned (((time + 500).tdiv 1000) % 4294967296).toNat

/-- What `modem.c` knows before a scan: the parts of `network_info`, and the static variables of
`lte_neighbor_cell_meas`. -/
structure Scans where
  mode : LteMode
  cell : ℕ
  earfcn : ℕ
  scans : ℕ := 0
  hits : ℕ := 0
  allScanTime : ℤ := 0

/-- The lines about the cells of a global search, with `scans` and `hits` behind them. -/
def gciLines (scans : Scans) (now all : ℤ) (cells : List LteLcCell) : List Text × Scans :=
  let width := if 9 < cells.length then 2 else 1
  let best := cells.foldl (fun best cell => max best (lteCellQuality cell)) 0
  let sorted := sorted lteCellQuality cells
  let current (cell : LteLcCell) : Bool := scans.cell = cell.id ∧ scans.earfcn = cell.earfcn
  let better := sorted.countP fun cell => current cell ∧ minQualityDelta < best - lteCellQuality cell
  let next := { scans with scans := (scans.scans + 1) % 4294967296, hits := (scans.hits + better) % 4294967296 }
  let matched := (List.range sorted.length).findRev? fun index => sorted[index]?.any current
  let head := line ("  ".toList ++ padded width ['#'] ++ " :  plmn    tac      cell  band earfnc pid rsrp/q dB(m)".toList)
  ([head] ++ sorted.mapIdx (fun index cell => gciLine width (current cell) index cell) ++
    (matched.map fun index => line ("(*".toList ++ padded width (unsigned index) ++ " : current cell)".toList)).toList ++
    (if now = 0 then [] else [line ("Scans ".toList ++ unsigned next.scans ++ ", improves ".toList ++ unsigned next.hits ++
      ", ".toList ++ seconds now ++ " s, overall ".toList ++ seconds all ++ " s".toList)]), next)

/-- The lines about the neighbor cells. -/
def neighborLines (now : ℤ) (cells : List LteLcNcell) : List Text :=
  let width := if 9 < cells.length then 2 else 1
  (if cells = [] then [] else
    line ([' '] ++ padded width ['#'] ++ " : bd earfnc pid rsrp/q dB(m)".toList) ::
      (sorted lteNcellQuality cells).mapIdx (neighborLine width)) ++
    if now = 0 then [] else [line ("Scan ".toList ++ seconds now ++ " s".toList)]

/-- The lines that `lte_neighbor_cell_meas` appends, and what it keeps; `now` is the time of the scan, 0 if it was not
started by `modem_set_scan_time`. -/
def resultLines (scans : Scans) (now : ℤ) (info : LteLcCellsInfo) : List Text × Scans :=
  let scans := if info.gciCells = [] then scans else { scans with allScanTime := scans.allScanTime + now }
  let front := headLine scans.mode info ::
    if info.currentCell.id = lteLcCellEutranIdInvalid then [] else [currentLine info.currentCell]
  if info.gciCells = [] then (front ++ neighborLines now info.neighborCells, scans)
  else
    let (lines, scans) := gciLines scans now scans.allScanTime info.gciCells
    (front ++ lines, scans)

/-- `append_result`: the buffer and the index behind it. `copied` is `len` of the source, which it sets to what it
copies. -/
def appendResult (len : ℕ) (buf : Text) (idx : ℕ) (line : Text) : Option (Text × ℕ) :=
  if idx < len then
    let copied := min (len - idx - 1) line.length
    if 0 < copied then do
      let buf ← putAll buf idx (line.take copied)
      let buf ← put buf (idx + copied) '\n'
      let idx := if idx + copied + 1 = copied then idx + copied else idx + copied + 1
      let buf ← put buf idx textEnd
      some (buf, idx)
    else some (buf, idx)
  else some (buf, idx)

/-- The calls of `append_result` for some lines. -/
def appendResults (len : ℕ) (buf : Text) (lines : List Text) : Option (Text × ℕ) :=
  lines.foldlM (fun result line => appendResult len result.1 result.2 line) (buf, 0)

/-- `lte_neighbor_cell_meas`: `modem_last_neighbor_cell_meas`, `modem_last_neighbor_cell_meas_len` and the scans. -/
def lteNeighborCellMeas (scans : Scans) (now : ℤ) (info : LteLcCellsInfo) (buf : Text) : Option (Text × ℕ × Scans) :=
  let (lines, scans) := resultLines scans now info
  (appendResults buf.length buf lines).map fun (buf, len) => (buf, len, scans)

section Loops

variable {Pointer : Type} (quality : Pointer → ℤ)

/-- The inner loop, from `index2` down: the cell at `index2` is swapped with a worse one in front of it. -/
def swapDown (cell : Pointer) : ℕ → List (Option Pointer) → Option (List (Option Pointer))
  | 0, sorted => some sorted
  | index2 + 1, sorted => do
      let other ← sorted[index2]?.join
      if quality cell ≤ quality other then some sorted
      else
        let sorted ← put sorted (index2 + 1) (some other)
        let sorted ← put sorted index2 (some cell)
        swapDown cell index2 sorted

/-- The outer loop over the rest of the cells, from `index` up. -/
def sortFrom : ℕ → List Pointer → List (Option Pointer) → Option (List (Option Pointer))
  | _, [], sorted => some sorted
  | index, cell :: cells, sorted => do
      let sorted ← put sorted index (some cell)
      let sorted ← swapDown quality cell index sorted
      sortFrom (index + 1) cells sorted

end Loops

/-- A pointer to one of the cells. -/
abbrev CellPointer {Cell : Type} (cells : List Cell) : Type := Fin cells.length

/-- The array of pointers behind the loops. -/
def sortPointers {Cell : Type} (quality : Cell → ℤ) (cells : List Cell) : Option (List (Option (CellPointer cells))) :=
  sortFrom (fun pointer => quality cells[pointer]) 0 (List.finRange cells.length) (List.replicate cells.length none)

/-- `gci_cells_sorted`. -/
def gciCellsSorted (cells : List LteLcCell) : Option (List (Option (CellPointer cells))) := sortPointers lteCellQuality cells

/-- `neighbor_cells_sorted`. -/
def neighborCellsSorted (cells : List LteLcNcell) : Option (List (Option (CellPointer cells))) :=
  sortPointers lteNcellQuality cells

end CoapsClient.ModemCells
