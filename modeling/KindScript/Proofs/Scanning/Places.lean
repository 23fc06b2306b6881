import KindScript.Proofs.Scanning.Tiling

/-!
# The order of places

Every character moves the place on, so the tokens of a source begin at places that follow
each other, and no two of them are equal. The last one, and no other, marks the end.
-/

namespace KindScript

namespace Position

/-- One place comes before the other in a text. -/
def Before (p q : Position) : Prop :=
  p.line < q.line ∨ p.line = q.line ∧ p.column < q.column

theorem Before.ne {p q : Position} (before : p.Before q) : p ≠ q := by
  rintro rfl
  rcases before with line | ⟨_, column⟩
  · exact Nat.lt_irrefl _ line
  · exact Nat.lt_irrefl _ column

theorem Before.trans {p q r : Position} (first : p.Before q) (later : q.Before r) :
    p.Before r := by
  unfold Before at *
  omega

theorem before_step (p : Position) (c : Char) : p.Before (p.step c) := by
  unfold step
  split
  · exact .inl (Nat.lt_succ_self _)
  · exact .inr ⟨rfl, Nat.lt_succ_self _⟩

theorem before_advance (p : Position) {cs : List Char} (some : cs ≠ []) :
    p.Before (p.advance cs) := by
  induction cs generalizing p with
  | nil => exact absurd rfl some
  | cons c more ih =>
    have first := p.before_step c
    cases more with
    | nil => exact first
    | cons d more => exact first.trans (ih (p.step c) (List.cons_ne_nil d more))

end Position

namespace Scanning

open Token

theorem advance_take (text : List Char) (i : Nat) :
    Position.first.advance (text.take i) = placeAt text i := by
  rw [advance_first, placeAt, List.take_length]
  rfl

theorem before_placeAt {text : List Char} {i j : Nat} (lt : i < j) (inside : j ≤ text.length) :
    (placeAt text i).Before (placeAt text j) := by
  have between : slice text i j ≠ [] := by
    rw [slice, ← List.length_pos_iff, List.length_drop, List.length_take]
    omega
  have split : text.take j = text.take i ++ slice text i j := by
    have front : (text.take j).take i = text.take i := by
      rw [List.take_take, Nat.min_eq_left (Nat.le_of_lt lt)]
    rw [slice, ← front, List.take_append_drop]
  rw [← advance_take, ← advance_take, split, Position.advance_append]
  exact Position.before_advance _ between

namespace Tiles

variable {text : List Char} {i : Nat} {tokens : List Token}

theorem start (tiles : Tiles text i tokens) :
    ∀ t ∈ tokens, ∃ k, i ≤ k ∧ k ≤ text.length ∧ t.start = placeAt text k := by
  induction tiles with
  | done inside =>
    intro t mem
    rw [List.mem_singleton.mp mem]
    exact ⟨text.length, inside, Nat.le_refl _, rfl⟩
  | @word i start stop t later after some inside _ begins _ _ _ _ ih =>
    intro u mem
    rcases List.mem_cons.mp mem with rfl | mem
    · exact ⟨start, after, by omega, begins⟩
    · obtain ⟨k, le, most, begins⟩ := ih u mem
      exact ⟨k, by omega, most, begins⟩

theorem pairwise (tiles : Tiles text i tokens) :
    tokens.Pairwise fun t u => t.start.Before u.start := by
  induction tiles with
  | done => exact List.pairwise_singleton _ _
  | @word i start stop t later after some inside _ begins _ _ _ more ih =>
    refine List.pairwise_cons.mpr ⟨?_, ih⟩
    intro u mem
    obtain ⟨k, le, most, begins'⟩ := more.start u mem
    rw [begins, begins']
    exact before_placeAt (by omega) most

theorem nodup (tiles : Tiles text i tokens) : tokens.Nodup :=
  tiles.pairwise.imp fun before same => before.ne (congrArg Token.start same)

theorem exists_words (tiles : Tiles text i tokens) : ∃ words mark, tokens = words ++ [mark] ∧
    mark.kind = .endOfFile ∧ ∀ t ∈ words, t.kind ≠ .endOfFile := by
  induction tiles with
  | done => exact ⟨[], _, rfl, rfl, nofun⟩
  | @word i start stop t later after some inside _ _ _ kind _ _ ih =>
    obtain ⟨words, mark, rfl, ends, plain⟩ := ih
    exact ⟨t :: words, mark, rfl, ends, List.forall_mem_cons.mpr ⟨kind.1, plain⟩⟩

end Tiles

end Scanning

end KindScript
