import CheckGitStatus.Cpp.Report
import CheckGitStatus.Library.ColumnMaxima
import CheckGitStatus.Text.Decimal
import Mathlib.Order.Bounds.Basic

/-! # The layout of the table

`render_table` first measures every cell and then writes the rows with all but the last
cell padded. The cells of a column start at one display column, two columns at least
after every cell of the column before, and the rule is as long as the widest line. The
colours only add sequences that can be deleted again
(`CheckGitStatus.Cpp.renderTable_isTable`).
-/

namespace CheckGitStatus.Cpp

open Library Report

/-! ## Colour sequences -/

/-- What follows the parameters of a colour sequence and the `m` that ends it. -/
def afterParameters? : Text → Option Text
  | [] => none
  | byte :: rest =>
      if byte = 109 then some rest
      else if isDigit byte || byte == 59 then afterParameters? rest
      else none

/-- What follows a colour sequence, for a text that starts with one. -/
def afterColor? : Text → Option Text
  | escape :: bracket :: rest =>
      if escape = 27 ∧ bracket = 91 then afterParameters? rest else none
  | _ => none

theorem length_afterParameters? {text after : Text} (found : afterParameters? text = some after) :
    after.length < text.length := by
  induction text with
  | nil => cases found
  | cons byte rest ih =>
      rw [afterParameters?] at found
      split_ifs at found
      · cases found
        exact Nat.lt_succ_self _
      · exact (ih found).trans (Nat.lt_succ_self _)

theorem length_afterColor? {text after : Text} (found : afterColor? text = some after) :
    after.length < text.length := by
  unfold afterColor? at found
  split at found
  · split_ifs at found
    have shorter := length_afterParameters? found
    rw [List.length_cons, List.length_cons]
    omega
  · cases found

/-- The text without its colour sequences. -/
def deleteColors : Text → Text
  | [] => []
  | byte :: rest =>
      match _found : afterColor? (byte :: rest) with
      | some after => deleteColors after
      | none => byte :: deleteColors rest
termination_by text => text.length
decreasing_by
  · exact length_afterColor? _found
  · exact Nat.lt_succ_self _

theorem deleteColors_nil : deleteColors [] = [] := by
  rw [deleteColors]

/-- A colour sequence in front is deleted. -/
theorem deleteColors_of_afterColor? {text after : Text} (found : afterColor? text = some after) :
    deleteColors text = deleteColors after := by
  cases text with
  | nil => cases found
  | cons byte rest =>
      rw [deleteColors]
      split
      · rename_i other same
        rw [found] at same
        cases same
        rfl
      · rename_i none
        rw [found] at none
        cases none

theorem deleteColors_cons {byte : Byte} (plain : byte ≠ 27) (rest : Text) :
    deleteColors (byte :: rest) = byte :: deleteColors rest := by
  have absent : afterColor? (byte :: rest) = none := by
    unfold afterColor?
    split
    · rename_i same
      obtain ⟨rfl, -⟩ := List.cons.inj same
      rw [if_neg fun escape => plain escape.1]
    · rfl
  rw [deleteColors]
  split
  · rename_i found
    rw [absent] at found
    cases found
  · rfl

/-- A text without escape characters is kept. -/
theorem deleteColors_append {text : Text} (plain : 27 ∉ text) (rest : Text) :
    deleteColors (text ++ rest) = text ++ deleteColors rest := by
  induction text with
  | nil => rfl
  | cons byte others ih =>
      rw [List.mem_cons, not_or] at plain
      rw [List.cons_append, deleteColors_cons (Ne.symm plain.1), ih plain.2, List.cons_append]

/-- A colour is deleted wherever it stands. -/
def Erased (color : Text) : Prop :=
  ∀ rest, deleteColors (color ++ rest) = deleteColors rest

theorem Erased.append {left right : Text} (eraseLeft : Erased left) (eraseRight : Erased right) :
    Erased (left ++ right) := by
  intro rest
  rw [List.append_assoc, eraseLeft, eraseRight]

/-- A sequence with parameters is deleted. -/
theorem erased_sequence (parameters : Text)
    (digits : parameters.all (fun byte => isDigit byte || byte == 59) = true) :
    Erased (27 :: 91 :: (parameters ++ [109])) := by
  intro rest
  apply deleteColors_of_afterColor?
  have ended : afterParameters? ((parameters ++ [109]) ++ rest) = some rest := by
    induction parameters with
    | nil => rfl
    | cons byte others ih =>
        rw [List.all_cons, Bool.and_eq_true] at digits
        have other : byte ≠ 109 := by
          rintro rfl
          exact absurd digits.1 (by decide)
        rw [List.cons_append, List.cons_append, afterParameters?, if_neg other, if_pos digits.1]
        exact ih digits.2
  simp only [List.cons_append, afterColor?, and_self, ↓reduceIte, ended]

theorem erased_nil : Erased [] := fun _ => rfl

theorem erased_ansiReset : Erased ansiReset := erased_sequence (ascii "0") rfl

theorem erased_ansiRed : Erased ansiRed := erased_sequence (ascii "31") rfl

theorem erased_ansiGreen : Erased ansiGreen := erased_sequence (ascii "32") rfl

theorem erased_ansiYellow : Erased ansiYellow := erased_sequence (ascii "33") rfl

/-! ## Cells -/

/-- A text on one line and without escape characters. -/
structure IsPlain (text : Text) : Prop where
  unbroken : lineFeed ∉ text
  unescaped : 27 ∉ text

/-- A cell that colours and line breaks do not disturb. -/
structure IsPlainCell (cell : TableCell) : Prop where
  text : IsPlain cell.text
  color : Erased cell.color

instance (text : Text) : Decidable (IsPlain text) :=
  decidable_of_iff (lineFeed ∉ text ∧ 27 ∉ text)
    ⟨fun parts => ⟨parts.1, parts.2⟩, fun plain => ⟨plain.unbroken, plain.unescaped⟩⟩

theorem IsPlain.append {left right : Text} (plainLeft : IsPlain left) (plainRight : IsPlain right) :
    IsPlain (left ++ right) := by
  constructor
  · rw [List.mem_append, not_or]
    exact ⟨plainLeft.unbroken, plainRight.unbroken⟩
  · rw [List.mem_append, not_or]
    exact ⟨plainLeft.unescaped, plainRight.unescaped⟩

/-- A printed number is plain. -/
theorem isPlain_decimal (value : Nat) : IsPlain (decimal value) := by
  obtain ⟨-, -, -, -, -, digits⟩ := isNumber_parts (isNumber_decimal value)
  have other : ∀ byte, isDigit byte = false → byte ∉ decimal value := by
    intro byte noDigit inside
    rw [List.all_eq_true.mp digits byte inside] at noDigit
    cases noDigit
  exact ⟨other lineFeed rfl, other 27 rfl⟩

theorem remoteCell_isPlain {status : RepositoryStatus} (plain : IsPlain status.remoteUrl) :
    IsPlainCell (remoteCell status) := by
  unfold remoteCell
  split_ifs
  · exact ⟨by decide, erased_ansiRed⟩
  · exact ⟨by decide, erased_ansiRed⟩
  · exact ⟨by decide, erased_ansiGreen⟩
  · exact ⟨plain, erased_nil⟩

theorem worktreeCell_isPlain (status : RepositoryStatus) : IsPlainCell (worktreeCell status) := by
  unfold worktreeCell
  split_ifs
  · exact ⟨by decide, erased_ansiRed⟩
  · exact ⟨by decide, erased_ansiRed⟩
  · exact ⟨by decide, erased_ansiGreen⟩

theorem unpushedCell_isPlain (status : RepositoryStatus) : IsPlainCell (unpushedCell status) := by
  unfold unpushedCell
  split_ifs with error detached missing single many
  · exact ⟨by decide, erased_ansiRed⟩
  · exact ⟨by decide, erased_ansiYellow⟩
  · exact ⟨by decide, erased_ansiYellow⟩
  · exact ⟨by decide, erased_ansiRed⟩
  · refine ⟨?_, erased_ansiRed⟩
    rw [stdToString, if_neg (by omega)]
    exact (isPlain_decimal _).append (by decide)
  · exact ⟨by decide, erased_ansiGreen⟩

/-- The rows of the table: the header and one for every status. -/
def tableRows (statuses : List RepositoryStatus) : List (List TableCell) :=
  headerRow :: statuses.map statusRow

theorem headerRow_isPlain : ∀ cell ∈ headerRow, IsPlainCell cell := by
  have color : Erased (ansiBold ++ ansiCyan) :=
    Erased.append (erased_sequence (ascii "1") rfl) (erased_sequence (ascii "36") rfl)
  intro cell inside
  obtain ⟨title, listed, rfl⟩ := List.mem_map.mp inside
  refine ⟨?_, color⟩
  revert title
  decide

theorem statusRow_isPlain {status : RepositoryStatus} (path : IsPlain (pathText status.path))
    (url : IsPlain status.remoteUrl) : ∀ cell ∈ statusRow status, IsPlainCell cell := by
  simp only [statusRow, List.forall_mem_cons, List.not_mem_nil, false_implies, implies_true,
    and_true]
  exact ⟨⟨path, erased_nil⟩, remoteCell_isPlain url, worktreeCell_isPlain status,
    unpushedCell_isPlain status⟩

theorem tableRows_isPlain {statuses : List RepositoryStatus}
    (plain : ∀ status ∈ statuses, IsPlain (pathText status.path) ∧ IsPlain status.remoteUrl) :
    ∀ row ∈ tableRows statuses, ∀ cell ∈ row, IsPlainCell cell := by
  intro row inside
  rcases List.mem_cons.mp inside with rfl | listed
  · exact headerRow_isPlain
  · obtain ⟨status, member, rfl⟩ := List.mem_map.mp listed
    exact statusRow_isPlain (plain status member).1 (plain status member).2

/-! ## The widths of the columns -/

/-- The widths of the columns of the table. -/
def tableWidths (statuses : List RepositoryStatus) : List Nat :=
  columnWidths utf8Width (tableRows statuses)

/-- The widths of the columns are the largest widths of their cells. -/
theorem tableWidths_eq (statuses : List RepositoryStatus) :
    tableWidths statuses = columnMaxima [0, 0, 0, 0]
      ((tableRows statuses).map fun row => row.map fun cell => utf8Width cell.text) := by
  rw [tableWidths, columnWidths, columnMaxima, List.foldl_map]

theorem length_of_mem_tableRows {statuses : List RepositoryStatus} :
    ∀ row ∈ tableRows statuses, row.length = 4 := by
  intro row inside
  rcases List.mem_cons.mp inside with rfl | listed
  · rfl
  · obtain ⟨status, -, rfl⟩ := List.mem_map.mp listed
    rfl

/-- No cell is wider than its column. -/
theorem cell_le_tableWidths (statuses : List RepositoryStatus) :
    ∀ row ∈ tableRows statuses,
      List.Forall₂ (fun cell column => utf8Width cell.text ≤ column) row (tableWidths statuses) := by
  intro row inside
  rw [tableWidths_eq]
  apply List.forall₂_map_left_iff.mp
  apply le_columnMaxima
  · rw [List.forall_mem_map]
    intro other listed
    rw [List.length_map]
    exact length_of_mem_tableRows other listed
  · exact List.mem_map_of_mem inside

/-- Related lists are related at each index. -/
theorem forall₂_getElem? {α β : Type} {related : α → β → Prop} {left : List α} {right : List β}
    (all : List.Forall₂ related left right) {index : Nat} {first : α} {second : β}
    (here : left[index]? = some first) (there : right[index]? = some second) :
    related first second := by
  obtain ⟨_, rfl⟩ := List.getElem?_eq_some_iff.mp here
  obtain ⟨_, rfl⟩ := List.getElem?_eq_some_iff.mp there
  exact all.get _ _

/-- Some row fills the last column. -/
theorem exists_row_of_last_width {statuses : List RepositoryStatus} {last : Nat}
    (width : (tableWidths statuses)[3]? = some last) :
    ∃ row ∈ tableRows statuses, ∃ cell, row[3]? = some cell ∧ utf8Width cell.text = last := by
  have mapped := width
  rw [tableWidths_eq] at mapped
  rcases columnMaxima_attained mapped with zero | ⟨widths, inside, entry⟩
  · -- The loop starts with zero, which the header exceeds.
    cases zero
    have header := cell_le_tableWidths statuses headerRow List.mem_cons_self
    exact absurd (forall₂_getElem? header rfl width) (by decide)
  · obtain ⟨row, listed, rfl⟩ := List.mem_map.mp inside
    rw [List.getElem?_map, Option.map_eq_some_iff] at entry
    obtain ⟨cell, found, same⟩ := entry
    exact ⟨row, listed, cell, found, same⟩

/-! ## The lines -/

/-- The line that starts at a display column is the cells with spaces before them, each
up to its start column. -/
def PlacedAt : Nat → List Nat → List Text → Text → Prop
  | _, [], [], line => line = []
  | column, start :: starts, cell :: cells, line =>
      ∃ spaces rest, line = List.replicate spaces 32 ++ (cell ++ rest) ∧
        start = column + spaces ∧ PlacedAt (start + utf8Width cell) starts cells rest
  | _, _, _, _ => False

/-- Where the columns start: two columns after the width of the one before. -/
def startColumns (column : Nat) : List Nat → List Nat
  | [] => []
  | width :: widths => column :: startColumns (column + width + 2) widths

/-- The texts of a row, without their colours. -/
def cellTexts (row : List TableCell) : List Text :=
  row.map TableCell.text

/-- A rendered row has its cells at the start columns. -/
theorem placedAt_renderCells {row : List TableCell} {widths : List Nat}
    (fits : List.Forall₂ (fun cell column => utf8Width cell.text ≤ column) row widths)
    (column spaces : Nat) (nonempty : row ≠ []) :
    PlacedAt column (startColumns (column + spaces) widths) (cellTexts row)
      (List.replicate spaces 32 ++ renderCells utf8Width false widths row) := by
  induction fits generalizing column spaces with
  | nil => exact absurd rfl nonempty
  | @cons cell width cells widths le rest ih =>
      cases rest with
      | nil =>
          refine ⟨spaces, [], ?_, rfl, rfl⟩
          rw [renderCells, paintCell, Bool.false_and, if_neg Bool.false_ne_true, List.append_nil]
      | @cons next nextWidth others otherWidths nextLe later =>
          have moved : column + spaces + width + 2 =
              column + spaces + utf8Width cell.text + (width - utf8Width cell.text + 2) := by
            omega
          have placed := ih (column + spaces + utf8Width cell.text)
            (width - utf8Width cell.text + 2) (List.cons_ne_nil _ _)
          rw [← moved] at placed
          refine ⟨spaces, _, ?_, rfl, placed⟩
          rw [renderCells, paintCell, Bool.false_and, if_neg Bool.false_ne_true,
            List.append_assoc]

/-- A row of clean cells is one line. -/
theorem PlacedAt.unbroken {column : Nat} {starts : List Nat} {cells : List Text} {line : Text}
    (placed : PlacedAt column starts cells line) (clean : ∀ cell ∈ cells, lineFeed ∉ cell) :
    lineFeed ∉ line := by
  induction cells generalizing column starts line with
  | nil =>
      cases starts with
      | nil =>
          cases placed
          exact List.not_mem_nil
      | cons => exact placed.elim
  | cons cell cells ih =>
      cases starts with
      | nil => exact placed.elim
      | cons start starts =>
          obtain ⟨spaces, rest, rfl, -, later⟩ := placed
          have blank : lineFeed ∉ List.replicate spaces (32 : Byte) := by
            intro inside
            exact absurd (List.eq_of_mem_replicate inside) (by decide)
          rw [List.forall_mem_cons] at clean
          rw [List.mem_append, List.mem_append, not_or, not_or]
          exact ⟨blank, clean.1, ih later clean.2⟩

/-- A line ends with its last cell. -/
theorem PlacedAt.width {column start : Nat} {starts : List Nat} {cells : List Text}
    {line cell : Text} (placed : PlacedAt column starts cells line)
    (lastStart : starts.getLast? = some start) (lastCell : cells.getLast? = some cell) :
    column + utf8Width line = start + utf8Width cell := by
  induction cells generalizing column starts line with
  | nil => cases lastCell
  | cons first cells ih =>
      cases starts with
      | nil => exact placed.elim
      | cons firstStart starts =>
          obtain ⟨spaces, rest, rfl, moved, later⟩ := placed
          rw [utf8Width_append, utf8Width_append, utf8Width_spaces]
          cases cells with
          | nil =>
              cases starts with
              | nil =>
                  cases later
                  rw [List.getLast?_singleton] at lastStart lastCell
                  cases lastStart
                  cases lastCell
                  have none : utf8Width [] = 0 := rfl
                  omega
              | cons => exact later.elim
          | cons next others =>
              cases starts with
              | nil => exact later.elim
              | cons nextStart otherStarts =>
                  rw [List.getLast?_cons_cons] at lastStart lastCell
                  have ended := ih later lastStart lastCell
                  omega

/-- The next column starts two columns after the width of the one before. -/
theorem startColumns_succ {column start next : Nat} {widths : List Nat} {index : Nat}
    (here : (startColumns column widths)[index]? = some start)
    (there : (startColumns column widths)[index + 1]? = some next) :
    ∃ width, widths[index]? = some width ∧ next = start + width + 2 := by
  induction widths generalizing column index with
  | nil => cases here
  | cons width widths ih =>
      cases index with
      | zero =>
          cases widths with
          | nil => cases there
          | cons =>
              cases here
              cases there
              exact ⟨width, rfl, rfl⟩
      | succ index => exact ih here there

/-- The last column ends where all widths and gaps add up to. -/
theorem startColumns_getLast? {widths : List Nat} {last : Nat} (column : Nat)
    (width : widths.getLast? = some last) :
    ∃ start, (startColumns column widths).getLast? = some start ∧
      start + last = column + (widths.sum + 2 * (widths.length - 1)) := by
  induction widths generalizing column with
  | nil => cases width
  | cons first widths ih =>
      cases widths with
      | nil =>
          rw [List.getLast?_singleton] at width
          cases width
          exact ⟨column, rfl, rfl⟩
      | cons next others =>
          rw [List.getLast?_cons_cons] at width
          obtain ⟨start, found, total⟩ := ih (column + first + 2) width
          refine ⟨start, ?_, ?_⟩
          · rw [startColumns, startColumns, List.getLast?_cons_cons]
            exact found
          · simp only [List.sum_cons, List.length_cons] at total ⊢
            omega

/-! ## The table -/

/-- A table without colours: a header line, a rule and a line for every status. Each
line has its cells at the same start columns, two columns at least after the end of
every cell of the column before, and the rule is as long as the widest line. -/
structure IsTable (statuses : List RepositoryStatus) (starts : List Nat) (header rule : Text)
    (lines : List Text) (output : Text) : Prop where
  written : output = header ++ ascii "\n" ++ rule ++ ascii "\n" ++
    lines.flatMap fun line => line ++ ascii "\n"
  unbroken : ∀ line ∈ header :: lines, lineFeed ∉ line
  header_placed : PlacedAt 0 starts (cellTexts headerRow) header
  lines_placed : List.Forall₂
    (fun status line => PlacedAt 0 starts (cellTexts (statusRow status)) line) statuses lines
  apart : ∀ row ∈ tableRows statuses, ∀ (column : Nat) (cell : TableCell) (start next : Nat),
    row[column]? = some cell → starts[column]? = some start → starts[column + 1]? = some next →
      start + utf8Width cell.text + 2 ≤ next
  ruled : ∃ length, rule = List.replicate length 45 ∧
    IsGreatest {width | ∃ line ∈ header :: lines, utf8Width line = width} length

/-- The lines of the rows of the table. -/
def rowLine (statuses : List RepositoryStatus) (row : List TableCell) : Text :=
  renderCells utf8Width false (tableWidths statuses) row

/-- Every cell of a row starts at the start of its column. -/
theorem rowLine_placed {statuses : List RepositoryStatus} {row : List TableCell}
    (inside : row ∈ tableRows statuses) :
    PlacedAt 0 (startColumns 0 (tableWidths statuses)) (cellTexts row) (rowLine statuses row) := by
  have nonempty : row ≠ [] := by
    apply List.ne_nil_of_length_pos
    rw [length_of_mem_tableRows row inside]
    exact Nat.zero_lt_succ 3
  exact placedAt_renderCells (cell_le_tableWidths statuses row inside) 0 0 nonempty

/-- The table is its header line, the rule and a line for each status. -/
theorem renderTable_eq (statuses : List RepositoryStatus) :
    renderTable statuses false =
      rowLine statuses headerRow ++ ascii "\n" ++
      List.replicate ((tableWidths statuses).sum + 2 * ((tableWidths statuses).length - 1)) 45 ++
      ascii "\n" ++
      (statuses.map fun status => rowLine statuses (statusRow status)).flatMap
        fun line => line ++ ascii "\n" := by
  rw [List.flatMap_map]
  simp only [renderTable, Report.renderTable, rowLine, tableWidths, tableRows, List.flatMap_map]

/-- The width of a line is the total width, less what its last cell leaves free. -/
theorem utf8Width_rowLine {statuses : List RepositoryStatus} {row : List TableCell}
    (inside : row ∈ tableRows statuses) :
    ∃ cell last, row[3]? = some cell ∧ (tableWidths statuses)[3]? = some last ∧
      utf8Width cell.text ≤ last ∧
      utf8Width (rowLine statuses row) + last =
        (tableWidths statuses).sum + 2 * ((tableWidths statuses).length - 1) +
          utf8Width cell.text := by
  have fits := cell_le_tableWidths statuses row inside
  have length := length_of_mem_tableRows row inside
  have same := fits.length_eq
  obtain ⟨cell, here⟩ : ∃ cell, row[3]? = some cell := ⟨_, List.getElem?_eq_getElem (by omega)⟩
  obtain ⟨last, there⟩ : ∃ last, (tableWidths statuses)[3]? = some last :=
    ⟨_, List.getElem?_eq_getElem (by omega)⟩
  have lastWidth : (tableWidths statuses).getLast? = some last := by
    rw [List.getLast?_eq_getElem?, ← same, length]
    exact there
  have lastCell : (cellTexts row).getLast? = some cell.text := by
    rw [List.getLast?_eq_getElem?, cellTexts, List.length_map, length, List.getElem?_map, here]
    rfl
  obtain ⟨start, lastStart, total⟩ := startColumns_getLast? 0 lastWidth
  have width := (rowLine_placed inside).width lastStart lastCell
  refine ⟨cell, last, here, there, forall₂_getElem? fits here there, ?_⟩
  omega

/-- The rule is as long as the widest row. -/
theorem isGreatest_totalWidth (statuses : List RepositoryStatus) :
    IsGreatest {width | ∃ row ∈ tableRows statuses, utf8Width (rowLine statuses row) = width}
      ((tableWidths statuses).sum + 2 * ((tableWidths statuses).length - 1)) := by
  constructor
  · have header : headerRow ∈ tableRows statuses := List.mem_cons_self
    obtain ⟨_, last, -, width, -⟩ := utf8Width_rowLine header
    obtain ⟨row, listed, cell, found, full⟩ := exists_row_of_last_width width
    obtain ⟨other, otherLast, same, sameWidth, -, total⟩ := utf8Width_rowLine listed
    rw [found] at same
    rw [width] at sameWidth
    cases same
    cases sameWidth
    exact ⟨row, listed, by omega⟩
  · rintro width ⟨row, listed, rfl⟩
    obtain ⟨cell, last, -, -, fits, total⟩ := utf8Width_rowLine listed
    omega

/-- Without colours the text is a table. -/
theorem renderTable_isTable_plain {statuses : List RepositoryStatus}
    (plain : ∀ status ∈ statuses, IsPlain (pathText status.path) ∧ IsPlain status.remoteUrl) :
    ∃ starts header rule lines,
      IsTable statuses starts header rule lines (renderTable statuses false) := by
  have cells := tableRows_isPlain plain
  have lines : ∀ line, line ∈ rowLine statuses headerRow ::
      statuses.map (fun status => rowLine statuses (statusRow status)) ↔
        ∃ row ∈ tableRows statuses, rowLine statuses row = line := by
    intro line
    rw [← List.mem_map, tableRows, List.map_cons, List.map_map]
    rfl
  refine ⟨startColumns 0 (tableWidths statuses), rowLine statuses headerRow, _,
    statuses.map fun status => rowLine statuses (statusRow status), renderTable_eq statuses,
    ?_, rowLine_placed List.mem_cons_self, ?_, ?_, _, rfl, ?_⟩
  · intro line inside
    obtain ⟨row, listed, rfl⟩ := (lines line).mp inside
    apply (rowLine_placed listed).unbroken
    rw [cellTexts, List.forall_mem_map]
    exact fun cell part => (cells row listed cell part).text.unbroken
  · rw [List.forall₂_map_right_iff, List.forall₂_same]
    intro status inside
    exact rowLine_placed (List.mem_cons_of_mem _ (List.mem_map_of_mem inside))
  · intro row inside column cell start next found here there
    obtain ⟨width, entry, rfl⟩ := startColumns_succ here there
    have fits := forall₂_getElem? (cell_le_tableWidths statuses row inside) found entry
    omega
  · simp only [lines, exists_exists_and_eq_and]
    exact isGreatest_totalWidth statuses

/-! ## Colours -/

/-- A painted cell without its colour is the plain cell. -/
theorem deleteColors_paintCell {cell : TableCell} (plain : IsPlainCell cell) {value : Text}
    (unescaped : 27 ∉ value) (rest : Text) :
    deleteColors (paintCell true cell value ++ rest) = value ++ deleteColors rest := by
  unfold paintCell
  split
  · rw [List.append_assoc, List.append_assoc, plain.color, deleteColors_append unescaped,
      erased_ansiReset]
  · exact deleteColors_append unescaped rest

/-- The colours of a row are deleted. -/
theorem deleteColors_renderCells (widths : List Nat) {row : List TableCell}
    (plain : ∀ cell ∈ row, IsPlainCell cell) (rest : Text) :
    deleteColors (renderCells utf8Width true widths row ++ rest) =
      renderCells utf8Width false widths row ++ deleteColors rest := by
  have uncolored : ∀ cell value, paintCell false cell value = value := fun _ _ => rfl
  induction row generalizing widths with
  | nil => cases widths <;> rfl
  | cons cell cells ih =>
      rw [List.forall_mem_cons] at plain
      have unescaped := plain.1.text.unescaped
      cases cells with
      | nil =>
          have single : ∀ color, renderCells utf8Width color widths [cell] =
              paintCell color cell cell.text := by
            cases widths <;> exact fun _ => rfl
          rw [single, single, uncolored, deleteColors_paintCell plain.1 unescaped]
      | cons next others =>
          cases widths with
          | nil => rfl
          | cons width widths =>
              have padded : 27 ∉ cell.text ++
                  List.replicate (width - utf8Width cell.text + 2) (32 : Byte) := by
                rw [List.mem_append, not_or]
                refine ⟨unescaped, fun inside => ?_⟩
                exact absurd (List.eq_of_mem_replicate inside) (by decide)
              rw [renderCells, renderCells, List.append_assoc,
                deleteColors_paintCell plain.1 padded, ih widths plain.2, uncolored]
              simp only [List.append_assoc]

/-- The colours of rows that are each ended by a line feed are deleted. -/
theorem deleteColors_flatMap_renderCells (widths : List Nat) {rows : List (List TableCell)}
    (plain : ∀ row ∈ rows, ∀ cell ∈ row, IsPlainCell cell) :
    deleteColors (rows.flatMap fun row => renderCells utf8Width true widths row ++ ascii "\n") =
      rows.flatMap fun row => renderCells utf8Width false widths row ++ ascii "\n" := by
  induction rows with
  | nil => exact deleteColors_nil
  | cons row rest ih =>
      rw [List.forall_mem_cons] at plain
      rw [List.flatMap_cons, List.flatMap_cons, List.append_assoc, List.append_assoc,
        deleteColors_renderCells widths plain.1, deleteColors_append (by decide), ih plain.2]

/-- The coloured table without its colours is the plain one. -/
theorem deleteColors_renderTable {statuses : List RepositoryStatus}
    (plain : ∀ status ∈ statuses, IsPlain (pathText status.path) ∧ IsPlain status.remoteUrl) :
    deleteColors (renderTable statuses true) = renderTable statuses false := by
  have cells := List.forall_mem_cons.mp (tableRows_isPlain plain)
  have lineEnd : 27 ∉ ascii "\n" := by decide
  have rule : ∀ length, 27 ∉ List.replicate length (45 : Byte) := by
    intro length inside
    exact absurd (List.eq_of_mem_replicate inside) (by decide)
  simp only [renderTable, Report.renderTable, List.append_assoc]
  rw [deleteColors_renderCells _ cells.1, deleteColors_append lineEnd,
    deleteColors_append (rule _), deleteColors_append lineEnd,
    deleteColors_flatMap_renderCells _ cells.2]

/-- **The layout of the table.** For paths and URLs on one line and without escape
characters no padding is negative, the table without colours has its columns aligned
under a rule of its width, and deleting the colour sequences from the coloured table
gives the one without colours. -/
theorem renderTable_isTable {statuses : List RepositoryStatus}
    (plain : ∀ status ∈ statuses, IsPlain (pathText status.path) ∧ IsPlain status.remoteUrl) :
    (∀ row ∈ tableRows statuses, List.Forall₂ (fun cell column => utf8Width cell.text ≤ column)
        row (columnWidths utf8Width (tableRows statuses))) ∧
      (∃ starts header rule lines,
        IsTable statuses starts header rule lines (renderTable statuses false)) ∧
      deleteColors (renderTable statuses true) = renderTable statuses false :=
  ⟨cell_le_tableWidths statuses, renderTable_isTable_plain plain, deleteColors_renderTable plain⟩

/-- A dirty repository with a wide path and one without a remote. -/
def mixedStatuses : List RepositoryStatus :=
  [{ path := ascii "caf" ++ [0xc3, 0xa9], hasRemote := true, remoteUrl := ascii "host:repo.git"
     dirty := true, upstreamState := .ok, ahead := 2 },
    { path := ascii "notes", upstreamState := .missing }]

/-- The statuses of all colours are drawn alike without them. -/
theorem mixedStatuses_colors_deleted :
    deleteColors (renderTable mixedStatuses true) = renderTable mixedStatuses false := by
  have plain : ∀ status ∈ mixedStatuses,
      IsPlain (pathText status.path) ∧ IsPlain status.remoteUrl := by decide
  obtain ⟨-, -, deleted⟩ := renderTable_isTable plain
  exact deleted

end CheckGitStatus.Cpp
