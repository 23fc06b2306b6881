import KindScript.Proofs.Scanning.Tiling

/-!
# Scanning from another place

A text is scanned alike from any place. Its tokens and its error stand where they stand in
the text alone, with all lines moved on by the line of the place and the columns of the
first one by its column.
-/

namespace KindScript

/-! ## Places of a text inside another one -/

namespace Position

/-- Lines and columns are counted from one. -/
structure Counted (p : Position) : Prop where
  line : 1 ≤ p.line
  column : 1 ≤ p.column

theorem counted_first : Counted first :=
  ⟨Nat.le_refl 1, Nat.le_refl 1⟩

theorem Counted.step {p : Position} (counted : p.Counted) (c : Char) : (p.step c).Counted := by
  unfold Position.step
  split
  · exact ⟨Nat.le_add_left 1 _, Nat.le_refl 1⟩
  · exact ⟨counted.line, Nat.le_add_left 1 _⟩

theorem Counted.advance {p : Position} (counted : p.Counted) (cs : List Char) :
    (p.advance cs).Counted := by
  induction cs generalizing p with
  | nil => exact counted
  | cons c cs ih => exact ih (counted.step c)

/-- Where a place of a text is when the text begins at `start`. -/
def shift (start p : Position) : Position :=
  ⟨start.line + p.line - 1, if p.line = 1 then start.column + p.column - 1 else p.column⟩

theorem shift_first (start : Position) : start.shift first = start := rfl

theorem shift_step (start : Position) {p : Position} (counted : p.Counted) (c : Char) :
    (start.shift p).step c = start.shift (p.step c) := by
  have line := counted.line
  have column := counted.column
  unfold step
  split
  · have later : p.line + 1 ≠ 1 := by omega
    have next : start.line + p.line - 1 + 1 = start.line + (p.line + 1) - 1 := by omega
    simp only [shift, if_neg later, next]
  · have next : start.column + p.column - 1 + 1 = start.column + (p.column + 1) - 1 := by omega
    simp only [shift]
    split
    · rw [next]
    · rfl

theorem shift_advance (start : Position) {p : Position} (counted : p.Counted) (cs : List Char) :
    (start.shift p).advance cs = start.shift (p.advance cs) := by
  induction cs generalizing p with
  | nil => rfl
  | cons c cs ih => rw [advance_cons, shift_step start counted, ih (counted.step c), advance_cons]

end Position

/-- The token where the text begins at the place. -/
def Token.shift (place : Position) (t : Token) : Token :=
  { t with start := place.shift t.start, stop := place.shift t.stop }

/-- The error where the text begins at the place. -/
def ScanError.shift (place : Position) (e : ScanError) : ScanError :=
  { e with position := place.shift e.position }

namespace Scanning

open Token

/-! ## Scanning -/

/-- The result of a scan where the text begins at the place. -/
def shifted (place : Position) (result : Except ScanError (List Token)) :
    Except ScanError (List Token) :=
  (result.map (List.map (Token.shift place))).mapError (ScanError.shift place)

theorem scanFrom_shift (start : Position) {place : Position} (counted : place.Counted)
    (s : List Char) :
    scanFrom (start.shift place) s =
      (shifted start (scanFrom place s).1,
        ⟨start.shift (scanFrom place s).2.place, (scanFrom place s).2.rest⟩) := by
  fun_induction scanFrom place s with
  | case1 place =>
    rw [scanFrom]
    rfl
  | case2 place c rest blank ih =>
    rw [scanFrom, if_pos blank, Position.shift_step start counted, ih (counted.step c)]
  | case3 place c rest notBlank after fault failed =>
    rw [scanFrom, if_neg notBlank]
    simp only [failed, Position.shift_advance start counted, Fault.locate]
    rfl
  | case4 place c rest notBlank after piece read none ih =>
    cases piece with
    | word => cases none
    | comment =>
      rw [scanFrom, if_neg notBlank]
      simp only [read, Piece.token?, Position.shift_advance start counted]
      exact ih (counted.advance _)
  | case5 place c rest notBlank after piece read token some later ih =>
    cases piece with
    | comment => cases some
    | word kind text =>
      cases some
      rw [scanFrom, if_neg notBlank]
      simp only [read, Piece.token?, Position.shift_advance start counted]
      rw [ih (counted.advance _)]
      refine Prod.ext ?_ rfl
      show (shifted start (scanFrom after (lexeme c rest).rest).1).map _ = _
      cases (scanFrom after (lexeme c rest).rest).1 <;> rfl

/-- A text scanned from a place is scanned as it is alone, with the places of a text that
begins there. -/
theorem scanFrom_eq (place : Position) (s : List Char) :
    (scanFrom place s).1 = shifted place (tokenize (String.ofList s)) := by
  have moved := scanFrom_shift place Position.counted_first s
  rw [Position.shift_first] at moved
  rw [moved, tokenize_ofList]

end Scanning

end KindScript
