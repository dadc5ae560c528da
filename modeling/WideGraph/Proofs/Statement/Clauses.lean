import WideGraph.Proofs.Statement.Legible

/-!
# Reading the parts of a statement

The columns that order rows, assignments, and clauses that are no conjunctions can be read off from
what a statement has in their places. Three forms of assignment and eight forms of clause are told
apart by what stands behind the first name.
-/

namespace WideGraph

/-- Columns that order rows are legible with their directions. -/
theorem legible_order : Legible (fun order => IsIdentifier order.1) orderSymbols := by
  have hword : ∀ direction : SortOrder, IsWord direction.word := by
    intro direction
    cases direction <;> decide
  refine ⟨fun order horder => ?_, fun order rest horder => ?_,
    fun order other rest rest' horder hother hrest hrest' heq => ?_⟩
  · exact ((legible_word.unmarked _ horder.isWord).append (.of_letters (by decide))).append
      (legible_word.unmarked _ (hword order.2))
  · rw [orderSymbols, List.append_assoc, List.append_assoc]
    exact legible_word.starts _ _ horder.isWord
  · obtain ⟨column, direction⟩ := order
    obtain ⟨column', direction'⟩ := other
    rw [orderSymbols, orderSymbols, List.append_assoc, List.append_assoc, List.append_assoc,
      List.append_assoc] at heq
    obtain ⟨hcolumn, heq⟩ :=
      read_word horder.isWord hother.isWord (by decide) (by decide) heq
    obtain ⟨hdirection, hend⟩ := legible_word.read _ _ _ _ (hword direction) (hword direction')
      hrest hrest' (List.append_cancel_left heq)
    refine ⟨Prod.ext hcolumn ?_, hend⟩
    cases direction <;> cases direction' <;> first | rfl | exact absurd hdirection (by decide)

/-- Changes of one column are told apart by what they add or take out. -/
theorem Assignment.eq_of_changeSymbols {assignment other : Assignment}
    (hcolumn : assignment.column = other.column) {rest rest' : List Symbol}
    (heq : assignment.changeSymbols ++ rest = other.changeSymbols ++ rest') :
    assignment = other ∧ rest = rest' := by
  have hsigns : apart " + " " - " = true := by decide
  have hbrace : ∀ value tail tail', Symbol.value value :: tail ≠ letters "\x7b" ++ tail' :=
    fun _ _ _ heq => Symbol.noConfusion (List.cons.inj heq).1
  cases assignment <;> cases other <;>
    simp only [changeSymbols, List.append_assoc, List.append_cancel_left_eq,
      List.cons_append, List.nil_append, List.cons.injEq, Symbol.value.injEq] at heq
  case append.append column value column' value' =>
    cases hcolumn
    exact ⟨congrArg _ heq.1, heq.2⟩
  case removeAll.removeAll column value column' value' =>
    cases hcolumn
    exact ⟨congrArg _ heq.1, heq.2⟩
  case remove.remove column value column' value' =>
    cases hcolumn
    exact ⟨congrArg _ heq.1, heq.2⟩
  case removeAll.remove => exact absurd heq (hbrace _ _ _)
  case remove.removeAll => exact absurd heq.symm (hbrace _ _ _)
  case append.removeAll => exact absurd heq (letters_append_ne hsigns _ _)
  case append.remove => exact absurd heq (letters_append_ne hsigns _ _)
  case removeAll.append => exact absurd heq.symm (letters_append_ne hsigns _ _)
  case remove.append => exact absurd heq.symm (letters_append_ne hsigns _ _)

/-- Assignments to named columns are legible. -/
theorem legible_assignment :
    Legible (fun assignment => IsIdentifier assignment.column) Assignment.symbols := by
  have hstops : ∀ (assignment : Assignment) rest, Stops (assignment.changeSymbols ++ rest) := by
    intro assignment rest
    have hplus : delimits " + " = true := by decide
    have hminus : delimits " - " = true := by decide
    cases assignment with
    | append column value => exact stops_letters hplus _
    | removeAll column value => exact stops_letters hminus _
    | remove column value => exact stops_letters hminus _
  refine ⟨fun assignment hnamed => ?_, fun assignment rest hnamed => ?_,
    fun assignment other rest rest' hnamed hnamed' hrest hrest' heq => ?_⟩
  · have hcolumn := legible_word.unmarked _ hnamed.isWord
    have hchange : Unmarked assignment.changeSymbols := by
      cases assignment with
      | append column value =>
        exact (Unmarked.of_letters (by decide)).append (legible_value.unmarked value trivial)
      | removeAll column value =>
        exact (Unmarked.of_letters (by decide)).append (legible_value.unmarked value trivial)
      | remove column value =>
        exact (Unmarked.of_letters (by decide)).append ((Unmarked.of_letters (by decide)).append
          ((legible_value.unmarked value trivial).append (.of_letters (by decide))))
    exact hcolumn.append ((Unmarked.of_letters (by decide)).append (hcolumn.append hchange))
  · rw [Assignment.symbols, List.append_assoc]
    exact legible_word.starts _ _ hnamed.isWord
  · simp only [Assignment.symbols, List.append_assoc] at heq
    obtain ⟨hcolumn, heq⟩ := read_word hnamed.isWord hnamed'.isWord (by decide) (by decide) heq
    rw [hcolumn] at heq
    exact Assignment.eq_of_changeSymbols hcolumn
      (List.append_cancel_left (List.append_cancel_left heq))

/-- The ways in which a clause that is no conjunction goes on after its first word. -/
inductive ClauseForm where
  | compare (comparison : Comparison)
  | isIn
  | containsKey
  | token
deriving DecidableEq

namespace ClauseForm

/-- The text between the first word of a clause and its first value or column. -/
def opening : ClauseForm → String
  | compare comparison => " " ++ comparison.sign ++ " "
  | isIn => " IN ("
  | containsKey => " CONTAINS KEY "
  | token => "("

/-- All forms. -/
def all : List ClauseForm :=
  [compare .eq, compare .gt, compare .gte, compare .lt, compare .lte, isIn, containsKey, token]

theorem mem_all (form : ClauseForm) : form ∈ all := by
  cases form with
  | compare comparison => cases comparison <;> decide
  | _ => decide

/-- Every form begins with a delimiter. -/
theorem delimits_opening (form : ClauseForm) : delimits form.opening = true := by
  have hall : ∀ form ∈ all, delimits form.opening = true := by decide
  exact hall form form.mem_all

/-- Different forms differ before the end of their openings. -/
theorem eq_or_apart (form other : ClauseForm) :
    form = other ∨ apart form.opening other.opening = true := by
  have hall : ∀ form ∈ all, ∀ other ∈ all,
      form = other ∨ apart form.opening other.opening = true := by decide
  exact hall form form.mem_all other other.mem_all

end ClauseForm

namespace Clause

/-- All names in a clause are identifiers, and the bounds of its token ranges are numerals. -/
def WellNamed : Clause → Prop
  | compare _ column _ | isIn column _ | containsKey column _ => IsIdentifier column
  | tokenAtLeast columns token | tokenBelow columns token =>
    (∀ column ∈ columns, IsIdentifier column) ∧ IsIntegerLiteral token
  | and left right => left.WellNamed ∧ right.WellNamed

instance decidableWellNamed : (clause : Clause) → Decidable clause.WellNamed
  | compare _ _ _ | isIn _ _ | containsKey _ _ => inferInstanceAs (Decidable (IsIdentifier _))
  | tokenAtLeast _ _ | tokenBelow _ _ => inferInstanceAs (Decidable (_ ∧ _))
  | and left right =>
    have := decidableWellNamed left
    have := decidableWellNamed right
    inferInstanceAs (Decidable (_ ∧ _))

/-- A clause is no conjunction. -/
def IsLeaf : Clause → Prop
  | and _ _ => False
  | _ => True

/-- The first word of a clause. -/
def subject : Clause → String
  | compare _ column _ | isIn column _ | containsKey column _ => column
  | tokenAtLeast _ _ | tokenBelow _ _ => "token"
  | and left _ => left.subject

/-- How a clause goes on after its first word. -/
def form : Clause → ClauseForm
  | compare comparison _ _ => .compare comparison
  | isIn _ _ => .isIn
  | containsKey _ _ => .containsKey
  | tokenAtLeast _ _ | tokenBelow _ _ => .token
  | and left _ => left.form

/-- The symbols of a clause after the opening of its form. -/
def operand : Clause → List Symbol
  | compare _ _ value | containsKey _ value => [.value value]
  | isIn _ values => separated (fun value => [.value value]) ", " values ++ letters ")"
  | tokenAtLeast columns token =>
    separated letters ", " columns ++ (letters ") >= " ++ letters token)
  | tokenBelow columns token =>
    separated letters ", " columns ++ (letters ") < " ++ letters token)
  | and left right => left.operand ++ letters " AND " ++ right.symbols

/-- A clause is written as its first word, the opening of its form and what comes after it. -/
theorem symbols_eq (clause : Clause) :
    clause.symbols = letters clause.subject ++ (letters clause.form.opening ++ clause.operand) := by
  induction clause with
  | and left right hleft _ => simp only [symbols, subject, form, operand, hleft, List.append_assoc]
  | _ => simp only [symbols, subject, form, operand, ClauseForm.opening, List.append_assoc]

/-- The first word of a clause is a word. -/
theorem WellNamed.isWord_subject {clause : Clause} (h : clause.WellNamed) :
    IsWord clause.subject := by
  induction clause with
  | compare comparison column value => exact h.isWord
  | isIn column values => exact h.isWord
  | containsKey column value => exact h.isWord
  | tokenAtLeast columns token => exact (by decide : IsWord "token")
  | tokenBelow columns token => exact (by decide : IsWord "token")
  | and left right hleft _ => exact hleft h.1

/-- The leaves of a well-named clause are well-named and no conjunctions. -/
theorem WellNamed.leaves {clause : Clause} (h : clause.WellNamed) :
    ∀ leaf ∈ clause.leaves, leaf.IsLeaf ∧ leaf.WellNamed := by
  induction clause with
  | and left right hleft hright =>
    exact List.forall_mem_append.mpr ⟨hleft h.1, hright h.2⟩
  | _ => exact List.forall_mem_singleton.mpr ⟨trivial, h⟩

/-- Nothing in a well-named clause could be taken for a marker. -/
theorem WellNamed.unmarked {clause : Clause} (h : clause.WellNamed) : Unmarked clause.symbols := by
  induction clause with
  | compare comparison column value =>
    refine ((legible_word.unmarked column h.isWord).append (.of_letters ?_)).append
      (legible_value.unmarked value trivial)
    cases comparison <;> decide
  | isIn column values =>
    exact (((legible_word.unmarked column h.isWord).append (.of_letters (by decide))).append
      (legible_value.unmarked_separated (fun _ _ => trivial) (by decide))).append
      (.of_letters (by decide))
  | containsKey column value =>
    exact ((legible_word.unmarked column h.isWord).append (.of_letters (by decide))).append
      (legible_value.unmarked value trivial)
  | tokenAtLeast columns token =>
    exact ((((Unmarked.of_letters (by decide)).append (.of_letters (by decide))).append
      (legible_word.unmarked_separated (fun column hcolumn => (h.1 column hcolumn).isWord)
        (by decide))).append (.of_letters (by decide))).append
      (legible_word.unmarked token h.2.isWord)
  | tokenBelow columns token =>
    exact ((((Unmarked.of_letters (by decide)).append (.of_letters (by decide))).append
      (legible_word.unmarked_separated (fun column hcolumn => (h.1 column hcolumn).isWord)
        (by decide))).append (.of_letters (by decide))).append
      (legible_word.unmarked token h.2.isWord)
  | and left right hleft hright =>
    exact ((hleft h.1).append (.of_letters (by decide))).append (hright h.2)

/-- The columns and the bound of a token range can be read off. -/
theorem read_token {columns columns' : List String} {sign sign' token token' : String}
    (hcolumns : ∀ column ∈ columns, IsIdentifier column)
    (hcolumns' : ∀ column ∈ columns', IsIdentifier column)
    (hsign : sign ∈ [") >= ", ") < "]) (hsign' : sign' ∈ [") >= ", ") < "])
    (htoken : IsIntegerLiteral token) (htoken' : IsIntegerLiteral token')
    {rest rest' : List Symbol} (hrest : Stops rest) (hrest' : Stops rest')
    (heq : separated letters ", " columns ++ (letters sign ++ (letters token ++ rest)) =
      separated letters ", " columns' ++ (letters sign' ++ (letters token' ++ rest'))) :
    columns = columns' ∧ sign = sign' ∧ token = token' ∧ rest = rest' := by
  have hsigns : ∀ sign ∈ [") >= ", ") < "], ∀ other ∈ [") >= ", ") < "],
      sign = other ∨ apart sign other = true := by decide
  obtain ⟨hsame, heq⟩ := legible_word.read_separated
    (fun column hcolumn => (hcolumns column hcolumn).isWord)
    (fun column hcolumn => (hcolumns' column hcolumn).isWord)
    (.of_letters hsign _) (.of_letters hsign' _) (by decide) (by decide) heq
  obtain rfl | hapart := hsigns sign hsign sign' hsign'
  · obtain ⟨hbound, hend⟩ := legible_word.read _ _ _ _ htoken.isWord htoken'.isWord hrest hrest'
      (List.append_cancel_left heq)
    exact ⟨hsame, rfl, hbound, hend⟩
  · exact absurd heq (letters_append_ne hapart _ _)

/-- Clauses with the same first word and form are told apart by their operands. -/
theorem eq_of_operand {clause other : Clause} (hleaf : clause.IsLeaf) (hleaf' : other.IsLeaf)
    (hnamed : clause.WellNamed) (hnamed' : other.WellNamed)
    (hsubject : clause.subject = other.subject) (hform : clause.form = other.form)
    {rest rest' : List Symbol} (hrest : Stops rest) (hrest' : Stops rest')
    (heq : clause.operand ++ rest = other.operand ++ rest') : clause = other ∧ rest = rest' := by
  cases clause with
  | compare comparison column value =>
    cases other with
    | compare comparison' column' value' =>
      cases hform
      cases hsubject
      cases heq
      exact ⟨rfl, rfl⟩
    | and left right => exact hleaf'.elim
    | _ => cases hform
  | isIn column values =>
    cases other with
    | isIn column' values' =>
      cases hsubject
      have hparen : ")" ∈ [")"] := List.mem_cons_self
      simp only [operand, List.append_assoc] at heq
      obtain ⟨rfl, hend⟩ := legible_value.read_separated (fun _ _ => trivial) (fun _ _ => trivial)
        (.of_letters hparen _) (.of_letters hparen _) (by decide) (by decide) heq
      exact ⟨rfl, List.append_cancel_left hend⟩
    | and left right => exact hleaf'.elim
    | _ => cases hform
  | containsKey column value =>
    cases other with
    | containsKey column' value' =>
      cases hsubject
      cases heq
      exact ⟨rfl, rfl⟩
    | and left right => exact hleaf'.elim
    | _ => cases hform
  | tokenAtLeast columns token =>
    cases other with
    | tokenAtLeast columns' token' =>
      simp only [operand, List.append_assoc] at heq
      obtain ⟨rfl, -, rfl, hend⟩ := read_token hnamed.1 hnamed'.1 (by decide) (by decide) hnamed.2
        hnamed'.2 hrest hrest' heq
      exact ⟨rfl, hend⟩
    | tokenBelow columns' token' =>
      simp only [operand, List.append_assoc] at heq
      obtain ⟨-, hsign, -⟩ := read_token hnamed.1 hnamed'.1 (by decide) (by decide) hnamed.2
        hnamed'.2 hrest hrest' heq
      exact absurd hsign (by decide)
    | and left right => exact hleaf'.elim
    | _ => cases hform
  | tokenBelow columns token =>
    cases other with
    | tokenAtLeast columns' token' =>
      simp only [operand, List.append_assoc] at heq
      obtain ⟨-, hsign, -⟩ := read_token hnamed.1 hnamed'.1 (by decide) (by decide) hnamed.2
        hnamed'.2 hrest hrest' heq
      exact absurd hsign (by decide)
    | tokenBelow columns' token' =>
      simp only [operand, List.append_assoc] at heq
      obtain ⟨rfl, -, rfl, hend⟩ := read_token hnamed.1 hnamed'.1 (by decide) (by decide) hnamed.2
        hnamed'.2 hrest hrest' heq
      exact ⟨rfl, hend⟩
    | and left right => exact hleaf'.elim
    | _ => cases hform
  | and left right => exact hleaf.elim

/-- Well-named clauses that are no conjunctions are legible. -/
theorem legible : Legible (fun clause => clause.IsLeaf ∧ clause.WellNamed) symbols := by
  refine ⟨fun clause hclause => hclause.2.unmarked, fun clause rest hclause => ?_,
    fun clause other rest rest' hclause hother hrest hrest' heq => ?_⟩
  · rw [symbols_eq, List.append_assoc]
    exact legible_word.starts _ _ hclause.2.isWord_subject
  · simp only [symbols_eq, List.append_assoc] at heq
    obtain ⟨hsubject, heq⟩ := read_word hclause.2.isWord_subject hother.2.isWord_subject
      clause.form.delimits_opening other.form.delimits_opening heq
    obtain hform | hapart := clause.form.eq_or_apart other.form
    · rw [hform] at heq
      exact eq_of_operand hclause.1 hother.1 hclause.2 hother.2 hsubject hform hrest hrest'
        (List.append_cancel_left heq)
    · exact absurd heq (letters_append_ne hapart _ _)

end Clause

/-- What well-named clauses join is well-named and no conjunction. -/
theorem wellNamed_flatMap_leaves {clauses : List Clause}
    (h : ∀ clause ∈ clauses, clause.WellNamed) :
    ∀ leaf ∈ clauses.flatMap Clause.leaves, leaf.IsLeaf ∧ leaf.WellNamed := by
  intro leaf hleaf
  obtain ⟨clause, hclause, hleaf⟩ := List.mem_flatMap.mp hleaf
  exact (h clause hclause).leaves leaf hleaf

/-- Nothing in a restriction could be taken for a marker. -/
theorem unmarked_where {clauses : List Clause} (h : ∀ clause ∈ clauses, clause.WellNamed) :
    Unmarked (whereSymbols clauses) := by
  rw [← whereSymbols_leaves]
  exact Clause.legible.unmarked_introduced (wellNamed_flatMap_leaves h) (by decide) (by decide)

/-- The clauses that a restriction joins can be read off. -/
theorem read_where {clauses clauses' : List Clause}
    (h : ∀ clause ∈ clauses, clause.WellNamed) (h' : ∀ clause ∈ clauses', clause.WellNamed)
    {texts : List String} {rest rest' : List Symbol} (hrest : Opens texts rest)
    (hrest' : Opens texts rest') (hdelimits : (" AND " :: texts).all delimits = true)
    (hapart : texts.all (apart " AND ") = true) (hkeyword : texts.all (apart " WHERE ") = true)
    (heq : whereSymbols clauses ++ rest = whereSymbols clauses' ++ rest') :
    clauses.flatMap Clause.leaves = clauses'.flatMap Clause.leaves ∧ rest = rest' := by
  rw [← whereSymbols_leaves clauses, ← whereSymbols_leaves clauses'] at heq
  exact Clause.legible.read_introduced (wellNamed_flatMap_leaves h) (wellNamed_flatMap_leaves h')
    hrest hrest' hdelimits hapart hkeyword heq

end WideGraph
