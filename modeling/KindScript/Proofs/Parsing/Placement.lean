import KindScript.Proofs.Parsing.Grammar
import Mathlib.Data.List.TakeWhile

/-!
# Where tokens stand

The grammar asks of a token for its kind and its text only. So tokens that differ in their
places alone spell the same phrases, the same sentences and the same programs.
-/

namespace KindScript.Grammar

/-- What the grammar asks of a token. -/
def wordOf (t : Token) : Token.Kind × String :=
  (t.kind, t.text)

section Words

variable {t u : Token}

theorem kind_of_wordOf (same : wordOf u = wordOf t) : u.kind = t.kind :=
  congrArg Prod.fst same

theorem text_of_wordOf (same : wordOf u = wordOf t) : u.text = t.text :=
  congrArg Prod.snd same

end Words

/-- The words are the same in the same order. -/
def SameWords (us ts : List Token) : Prop :=
  us.map wordOf = ts.map wordOf

namespace SameWords

variable {us ts rest : List Token} {t : Token}

theorem of_nil (same : SameWords us []) : us = [] :=
  List.map_eq_nil_iff.mp same

theorem of_cons (same : SameWords us (t :: rest)) :
    ∃ u more, us = u :: more ∧ wordOf u = wordOf t ∧ SameWords more rest :=
  List.map_eq_cons_iff.mp same

theorem of_single (same : SameWords us [t]) : ∃ u, us = [u] ∧ wordOf u = wordOf t := by
  obtain ⟨u, more, rfl, word, none⟩ := same.of_cons
  rw [none.of_nil]
  exact ⟨u, rfl, word⟩

theorem of_append (same : SameWords us (ts ++ rest)) :
    ∃ vs more, us = vs ++ more ∧ SameWords vs ts ∧ SameWords more rest := by
  rw [SameWords, List.map_append] at same
  exact List.map_eq_append_iff.mp same

theorem head? (same : SameWords us ts) : ∀ u ∈ us.head?, ∃ t ∈ ts.head?, wordOf u = wordOf t := by
  intro u first
  have heads : us.head?.map wordOf = ts.head?.map wordOf := by
    rw [← List.head?_map, ← List.head?_map, same]
  rw [first, Option.map_some] at heads
  obtain ⟨t, first', word⟩ := Option.map_eq_some_iff.mp heads.symm
  exact ⟨t, first', word.symm⟩

end SameWords

/-! ## Derivations -/

theorem Operator.of_wordOf {tier : Tier} {t u : Token}
    {build : Expression → Expression → Expression} (op : Operator tier t build)
    (same : wordOf u = wordOf t) : Operator tier u build := by
  have kinds := kind_of_wordOf same
  have texts := text_of_wordOf same
  cases op with
  | conjunction kind text => exact .conjunction (kinds.trans kind) (texts ▸ text)
  | disjunction kind text => exact .disjunction (kinds.trans kind) (texts ▸ text)
  | comparison kind text sign => exact .comparison (kinds.trans kind) (texts.trans text) sign
  | is kind text => exact .is (kinds.trans kind) (texts.trans text)
  | additive kind text sign => exact .additive (kinds.trans kind) (texts.trans text) sign
  | multiplicative kind text sign =>
    exact .multiplicative (kinds.trans kind) (texts.trans text) sign

theorem Assigns.of_wordOf {t u : Token} (sign : Assigns t) (same : wordOf u = wordOf t) :
    Assigns u := by
  rw [Assigns, kind_of_wordOf same]
  exact sign

theorem Stops.of_sameWords {tier : Tier} {ts us : List Token} (stops : Stops tier ts)
    (same : SameWords us ts) : Stops tier us := by
  intro u first other build loose op
  obtain ⟨t, first', word⟩ := same.head? u first
  exact stops t first' other build loose (op.of_wordOf word.symm)

theorem Phrase.of_sameWords {tier : Tier} {ts us : List Token} {e : Expression}
    (phrase : Phrase tier ts e) (same : SameWords us ts) : Phrase tier us e := by
  induction phrase generalizing us with
  | tighter loose _ ih => exact .tighter loose (ih same)
  | operation op _ _ left right =>
    obtain ⟨ls, more, rfl, lefts, same⟩ := same.of_append
    obtain ⟨u, rs, rfl, word, rights⟩ := same.of_cons
    exact .operation (op.of_wordOf word) (left lefts) (right rights)
  | negation kind _ ih =>
    obtain ⟨u, more, rfl, word, same⟩ := same.of_cons
    exact .negation ((kind_of_wordOf word).trans kind) (ih same)
  | group opening _ closing ih =>
    obtain ⟨o, more, rfl, first, same⟩ := same.of_cons
    obtain ⟨inside, more, rfl, between, last⟩ := same.of_append
    obtain ⟨c, rfl, word⟩ := last.of_single
    exact .group ((kind_of_wordOf first).trans opening) (ih between)
      ((kind_of_wordOf word).trans closing)
  | name kind =>
    obtain ⟨u, rfl, word⟩ := same.of_single
    rw [← text_of_wordOf word]
    exact .name ((kind_of_wordOf word).trans kind)
  | null kind =>
    obtain ⟨u, rfl, word⟩ := same.of_single
    exact .null ((kind_of_wordOf word).trans kind)
  | boolean kind =>
    obtain ⟨u, rfl, word⟩ := same.of_single
    rw [← text_of_wordOf word]
    exact .boolean ((kind_of_wordOf word).trans kind)
  | string kind =>
    obtain ⟨u, rfl, word⟩ := same.of_single
    rw [← text_of_wordOf word]
    exact .string ((kind_of_wordOf word).trans kind)
  | char kind text =>
    obtain ⟨u, rfl, word⟩ := same.of_single
    rw [← text_of_wordOf word] at text
    exact .char ((kind_of_wordOf word).trans kind) text
  | number value =>
    obtain ⟨u, rfl, word⟩ := same.of_single
    rw [← kind_of_wordOf word, ← text_of_wordOf word] at value
    exact .number value
  | plus sign text kind value =>
    obtain ⟨s, more, rfl, first, same⟩ := same.of_cons
    obtain ⟨u, rfl, word⟩ := same.of_single
    rw [← kind_of_wordOf word] at kind value
    rw [← text_of_wordOf word] at value
    exact .plus ((kind_of_wordOf first).trans sign) ((text_of_wordOf first).trans text) kind value
  | minus sign text kind value =>
    obtain ⟨s, more, rfl, first, same⟩ := same.of_cons
    obtain ⟨u, rfl, word⟩ := same.of_single
    rw [← kind_of_wordOf word] at kind value
    rw [← text_of_wordOf word] at value
    exact .minus ((kind_of_wordOf first).trans sign) ((text_of_wordOf first).trans text) kind value

theorem Terminator.of_sameWords {ts us : List Token} (terminator : Terminator ts)
    (same : SameWords us ts) : Terminator us := by
  rcases terminator with rfl | ⟨t, kind, rfl⟩
  · exact .inl same.of_nil
  · obtain ⟨u, rfl, word⟩ := same.of_single
    exact .inr ⟨u, (kind_of_wordOf word).trans kind, rfl⟩

mutual

theorem Sentence.of_sameWords {reaches : Bool} {ts us : List Token} {s : Statement}
    (sentence : Sentence reaches ts s) (same : SameWords us ts) : Sentence reaches us s := by
  match sentence with
  | .declaration keyword name =>
    obtain ⟨v, more, rfl, first, same⟩ := same.of_cons
    obtain ⟨n, rfl, second⟩ := same.of_single
    rw [← text_of_wordOf second]
    exact .declaration ((kind_of_wordOf first).trans keyword) ((kind_of_wordOf second).trans name)
  | .initialized keyword name sign value =>
    obtain ⟨v, more, rfl, first, same⟩ := same.of_cons
    obtain ⟨n, more, rfl, second, same⟩ := same.of_cons
    obtain ⟨q, more, rfl, third, same⟩ := same.of_cons
    rw [← text_of_wordOf second]
    exact .initialized ((kind_of_wordOf first).trans keyword) ((kind_of_wordOf second).trans name)
      ((kind_of_wordOf third).trans sign) (value.of_sameWords same)
  | .constant keyword name sign value =>
    obtain ⟨v, more, rfl, first, same⟩ := same.of_cons
    obtain ⟨n, more, rfl, second, same⟩ := same.of_cons
    obtain ⟨q, more, rfl, third, same⟩ := same.of_cons
    rw [← text_of_wordOf second]
    exact .constant ((kind_of_wordOf first).trans keyword) ((kind_of_wordOf second).trans name)
      ((kind_of_wordOf third).trans sign) (value.of_sameWords same)
  | .assignment name sign text value =>
    obtain ⟨n, more, rfl, first, same⟩ := same.of_cons
    obtain ⟨q, more, rfl, second, same⟩ := same.of_cons
    rw [← text_of_wordOf first]
    exact .assignment ((kind_of_wordOf first).trans name) (sign.of_wordOf second)
      ((text_of_wordOf second).trans text) (value.of_sameWords same)
  | .compound name sign text value =>
    obtain ⟨n, more, rfl, first, same⟩ := same.of_cons
    obtain ⟨q, more, rfl, second, same⟩ := same.of_cons
    rw [← text_of_wordOf first]
    exact .compound ((kind_of_wordOf first).trans name) (sign.of_wordOf second)
      ((text_of_wordOf second).trans text) (value.of_sameWords same)
  | .increment name sign text =>
    obtain ⟨n, more, rfl, first, same⟩ := same.of_cons
    obtain ⟨q, rfl, second⟩ := same.of_single
    rw [← text_of_wordOf first]
    exact .increment ((kind_of_wordOf first).trans name) (sign.of_wordOf second)
      ((text_of_wordOf second).trans text)
  | .decrement name sign text =>
    obtain ⟨n, more, rfl, first, same⟩ := same.of_cons
    obtain ⟨q, rfl, second⟩ := same.of_single
    rw [← text_of_wordOf first]
    exact .decrement ((kind_of_wordOf first).trans name) (sign.of_wordOf second)
      ((text_of_wordOf second).trans text)
  | .expression value => exact .expression (value.of_sameWords same)
  | .block opening inner closing =>
    obtain ⟨o, more, rfl, first, same⟩ := same.of_cons
    obtain ⟨inside, more, rfl, between, last⟩ := same.of_append
    obtain ⟨c, rfl, word⟩ := last.of_single
    exact .block ((kind_of_wordOf first).trans opening) (inner.of_sameWords between)
      ((kind_of_wordOf word).trans closing)

theorem Body.of_sameWords {ts us : List Token} {body : List Statement} (spelled : Body ts body)
    (same : SameWords us ts) : Body us body := by
  match spelled with
  | .nil =>
    rw [same.of_nil]
    exact .nil
  | .cons first terminator longest later =>
    obtain ⟨vs, more, rfl, sentence, after⟩ := same.of_append
    obtain ⟨semicolon, rest, rfl, ended, others⟩ := after.of_append
    refine .cons (first.of_sameWords sentence) (terminator.of_sameWords ended) ?_
      (later.of_sameWords others)
    intro none reaches
    subst none
    have none := List.map_eq_nil_iff.mp ended.symm
    exact (longest none reaches).of_sameWords others

end

/-! ## Programs -/

theorem SameWords.mostOpen_eq {us ts : List Token} (same : SameWords us ts) (count : Nat) :
    mostOpen count us = mostOpen count ts := by
  induction ts generalizing us count with
  | nil => rw [same.of_nil]
  | cons t ts ih =>
    obtain ⟨u, more, rfl, word, same⟩ := same.of_cons
    have opens : openAfter count u = openAfter count t := by
      rw [openAfter, kind_of_wordOf word, openAfter]
    rw [mostOpen, mostOpen, opens, ih same]

/-- A program can be spelled by the same words at other places, with anything after the end
mark. -/
theorem Spells.of_sameWords {ts us rest : List Token} {tree : Tree} {mark : Token}
    (spells : Spells ts tree) (whole : ∀ t ∈ ts, t.kind ≠ .endOfFile) (same : SameWords us ts)
    (ends : mark.kind = .endOfFile) : Spells (us ++ mark :: rest) tree := by
  have all : ts.takeWhile (·.kind ≠ .endOfFile) = ts :=
    List.takeWhile_eq_self_iff.mpr fun t mem => decide_eq_true (whole t mem)
  obtain ⟨body, groups, low⟩ := spells
  rw [all] at body groups
  have body := body.of_sameWords same
  have cut : (us ++ mark :: rest).takeWhile (·.kind ≠ .endOfFile) = us := by
    rw [List.takeWhile_append_of_pos fun u mem => decide_eq_true (body.not_end u mem)]
    simp [ends]
  refine ⟨?_, ?_, low⟩
  · rw [cut]
    exact body
  · rw [cut, same.mostOpen_eq]
    exact groups

end KindScript.Grammar
