import CheckGitStatus.Text.Bytes

/-! # Cutting a string with `find` and `substr`

Both lookups of git go through the pieces of `PATH` with positions of type `std::size_t`,
where the length of the last piece is computed from `npos`. The loop tries the pieces in
order (`CheckGitStatus.Cpp.BasicString.findPiece_eq`).
-/

namespace CheckGitStatus.Cpp

/-! ## Positions in a string -/

/-- A `std::basic_string`, which has no more characters than positions can number. -/
structure BasicString (α : Type) where
  text : List α
  length_lt : text.length < 9223372036854775808

/-- `npos`. -/
def npos : UInt64 := 18446744073709551615

namespace BasicString

variable {α β : Type}

/-- `size`, in the 64 bits of `size_t`. -/
def size (value : BasicString α) : UInt64 :=
  UInt64.ofNat value.text.length

/-- `substr` from a position that is not past the end. -/
def substr (value : BasicString α) (start count : UInt64) : List α :=
  (value.text.drop start.toNat).take count.toNat

theorem le_size_iff (value : BasicString α) {start : UInt64} :
    start ≤ value.size ↔ start.toNat ≤ value.text.length := by
  have bound := value.length_lt
  have size_toNat : value.size.toNat = value.text.length :=
    UInt64.toNat_ofNat_of_lt' (show _ < 18446744073709551616 by omega)
  rw [UInt64.le_iff_toNat_le, size_toNat]

/-- The piece up to the end, whose length is computed from `npos`. -/
theorem substr_npos (value : BasicString α) {start : UInt64} (inside : start ≤ value.size) :
    value.substr start (npos - start) = value.text.drop start.toNat := by
  have bound := value.length_lt
  have within := value.le_size_iff.mp inside
  have before : start ≤ npos := UInt64.le_iff_toNat_le.mpr (by
    change start.toNat ≤ 18446744073709551615
    omega)
  rw [substr, UInt64.toNat_sub_of_le _ _ before]
  apply List.take_of_length_le
  rw [List.length_drop]
  change _ ≤ 18446744073709551615 - start.toNat
  omega

variable [DecidableEq α]

/-- `find` of one character from a position on. -/
def find (value : BasicString α) (character : α) (start : UInt64) : UInt64 :=
  match (value.text.drop start.toNat).idxOf? character with
  | none => npos
  | some offset => start + UInt64.ofNat offset

/-- A search from a position on has found the character behind a piece of the text. -/
structure FoundAfter (value : BasicString α) (character : α) (start : UInt64)
    (piece rest : List α) : Prop where
  text_eq : value.text.drop start.toNat = piece ++ character :: rest
  clean : character ∉ piece
  position : (value.find character start).toNat = start.toNat + piece.length

/-- A search finds nothing, or the first place of the character. -/
theorem find_cases (value : BasicString α) (character : α) {start : UInt64}
    (inside : start ≤ value.size) :
    (value.find character start = npos ∧ character ∉ value.text.drop start.toNat) ∨
      ∃ piece rest, value.FoundAfter character start piece rest := by
  have bound := value.length_lt
  have within := value.le_size_iff.mp inside
  cases found : (value.text.drop start.toNat).idxOf? character with
  | none =>
      left
      rw [find, found]
      exact ⟨rfl, List.idxOf?_eq_none_iff.mp found⟩
  | some offset =>
      obtain ⟨short, same, earlier⟩ := List.idxOf?_eq_some_iff.mp found
      refine .inr ⟨(value.text.drop start.toNat).take offset,
        (value.text.drop start.toNat).drop (offset + 1), ?_, ?_, ?_⟩
      · rw [← same, ← List.drop_eq_getElem_cons, List.take_append_drop]
      · intro member
        obtain ⟨index, before, sameCharacter⟩ := List.mem_take_iff_getElem.mp member
        exact earlier index (by omega) sameCharacter
      · rw [List.length_drop] at short
        rw [find, found, List.length_take, List.length_drop, UInt64.toNat_add,
          UInt64.toNat_ofNat']
        omega

namespace FoundAfter

variable {value : BasicString α} {character : α} {start : UInt64} {piece rest : List α}

theorem position_lt (found : value.FoundAfter character start piece rest) :
    (value.find character start).toNat < value.text.length := by
  have lengths := congrArg List.length found.text_eq
  rw [List.length_drop, List.length_append, List.length_cons] at lengths
  rw [found.position]
  omega

theorem ne_npos (found : value.FoundAfter character start piece rest) :
    value.find character start ≠ npos := by
  intro same
  have bound := value.length_lt
  have short := found.position_lt
  rw [same] at short
  change 18446744073709551615 < _ at short
  omega

/-- The piece in front of the separator is what `substr` cuts out. -/
theorem substr_eq (found : value.FoundAfter character start piece rest) :
    value.substr start (value.find character start - start) = piece := by
  have behind : start ≤ value.find character start :=
    UInt64.le_iff_toNat_le.mpr (found.position ▸ Nat.le_add_right _ _)
  rw [substr, UInt64.toNat_sub_of_le _ _ behind, found.position, Nat.add_sub_cancel_left,
    found.text_eq, List.take_left]

/-- The next piece starts behind the separator. -/
theorem toNat_next (found : value.FoundAfter character start piece rest) :
    (value.find character start + 1).toNat = start.toNat + (piece.length + 1) := by
  have bound := value.length_lt
  have short := found.position_lt
  rw [UInt64.toNat_add, UInt64.toNat_one, Nat.mod_eq_of_lt (by omega), found.position,
    Nat.add_assoc]

theorem next_inside (found : value.FoundAfter character start piece rest) :
    value.find character start + 1 ≤ value.size := by
  rw [le_size_iff, found.toNat_next, ← Nat.add_assoc, ← found.position]
  exact found.position_lt

theorem drop_next (found : value.FoundAfter character start piece rest) :
    value.text.drop (value.find character start + 1).toNat = rest := by
  rw [found.toNat_next, ← List.drop_drop, found.text_eq, ← List.drop_drop, List.drop_left,
    List.drop_one, List.tail_cons]

end FoundAfter

/-- If `find` finds a separator, there is a piece in front of it. -/
theorem exists_foundAfter (value : BasicString α) {character : α} {start : UInt64}
    (inside : start ≤ value.size) (found : value.find character start ≠ npos) :
    ∃ piece rest, value.FoundAfter character start piece rest := by
  rcases value.find_cases character inside with ⟨missing, _⟩ | after
  · exact absurd missing found
  · exact after

/-- The loop makes progress. -/
theorem next_decreases (value : BasicString α) {separator : α} {start : UInt64}
    (inside : start ≤ value.size) (found : value.find separator start ≠ npos) :
    value.text.length + 1 - (value.find separator start + 1).toNat <
      value.text.length + 1 - start.toNat := by
  obtain ⟨piece, rest, after⟩ := value.exists_foundAfter inside found
  have next := after.toNat_next
  have short := value.le_size_iff.mp inside
  omega

/-- The first of the pieces that the separator cuts ends at the position that is found. -/
theorem splitOn_drop (value : BasicString α) (separator : α) {start : UInt64}
    (inside : start ≤ value.size) :
    (value.text.drop start.toNat).splitOn separator =
      value.substr start (value.find separator start - start) ::
        if value.find separator start = npos then []
        else (value.text.drop (value.find separator start + 1).toNat).splitOn separator := by
  rcases value.find_cases separator inside with ⟨missing, clean⟩ | ⟨piece, rest, after⟩
  · rw [missing, if_pos rfl, value.substr_npos inside, List.splitOn_eq_singleton clean]
  · rw [if_neg after.ne_npos, after.substr_eq, after.drop_next, after.text_eq,
      List.splitOn_append_cons_self_of_not_mem after.clean]

/-! ## The loop -/

/-- The loop, from a position on: what the first piece gives that gives anything. -/
def findPieceFrom (value : BasicString α) (separator : α) (attempt : List α → Option β)
    (start : UInt64) : Option β :=
  if _ : start ≤ value.size then
    let position := value.find separator start
    let piece := value.substr start (position - start)
    match attempt piece with
    | some result => some result
    | none =>
        if found : position = npos then none
        else findPieceFrom value separator attempt (position + 1)
  else none
termination_by value.text.length + 1 - start.toNat
decreasing_by exact value.next_decreases ‹start ≤ value.size› found

/-- The loop from the beginning of the value. -/
def findPiece (value : BasicString α) (separator : α) (attempt : List α → Option β) : Option β :=
  value.findPieceFrom separator attempt 0

/-- From a position on, the loop tries the pieces behind it in order. -/
theorem findPieceFrom_eq (value : BasicString α) (separator : α) (attempt : List α → Option β)
    {start : UInt64} (inside : start ≤ value.size) :
    value.findPieceFrom separator attempt start =
      ((value.text.drop start.toNat).splitOn separator).findSome? attempt := by
  induction start using findPieceFrom.induct value separator attempt with
  | case1 start _ position piece result given =>
      have tried : attempt (value.substr start (value.find separator start - start)) =
          some result := given
      rw [findPieceFrom, dif_pos inside, value.splitOn_drop separator inside,
        List.findSome?_cons]
      dsimp only
      rw [tried]
  | case2 start _ position piece nothing last =>
      have tried : attempt (value.substr start (value.find separator start - start)) = none :=
        nothing
      rw [findPieceFrom, dif_pos inside, value.splitOn_drop separator inside, if_pos last,
        List.findSome?_cons]
      dsimp only
      rw [tried]
      exact dif_pos last
  | case3 start _ position piece nothing more ih =>
      obtain ⟨_, rest, after⟩ := value.exists_foundAfter inside more
      have tried : attempt (value.substr start (value.find separator start - start)) = none :=
        nothing
      rw [findPieceFrom, dif_pos inside, value.splitOn_drop separator inside, if_neg more,
        List.findSome?_cons]
      dsimp only
      rw [tried]
      exact (dif_neg more).trans (ih after.next_inside)
  | case4 start outside => exact absurd inside outside

/-- The loop tries the pieces between the separators in order. -/
theorem findPiece_eq (value : BasicString α) (separator : α) (attempt : List α → Option β) :
    value.findPiece separator attempt = (value.text.splitOn separator).findSome? attempt :=
  value.findPieceFrom_eq separator attempt (value.le_size_iff.mpr (Nat.zero_le _))

end BasicString

end CheckGitStatus.Cpp
