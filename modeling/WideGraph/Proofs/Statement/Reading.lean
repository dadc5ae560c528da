import WideGraph.Proofs.Statement.Clauses

/-!
# Statements read back

If its names are made of letters, digits and underscores and the bounds of its token ranges are
numerals, a statement can be read back from its text and values, but for the way in which its
conjunctions are nested: neither its kind nor its table nor any other part can be mistaken for
another. The text has a marker for every value and no question mark besides.
-/

namespace WideGraph

namespace Select

/-- The table and all columns of a select are identifiers. -/
def WellNamed (select : Select) : Prop :=
  IsIdentifier select.table ∧ (∀ clause ∈ select.clauses, clause.WellNamed) ∧
    ∀ order ∈ select.orders, IsIdentifier order.1

instance (select : Select) : Decidable select.WellNamed :=
  inferInstanceAs (Decidable (_ ∧ _ ∧ _))

/-- The select with its conjunctions taken apart. -/
def flat (select : Select) : Select :=
  { select with clauses := select.clauses.flatMap Clause.leaves }

/-- The symbols of a select are those of the select with its conjunctions taken apart. -/
theorem symbols_flat (select : Select) : select.flat.symbols = select.symbols := by
  rw [symbols, symbols, flat, whereSymbols_leaves]

/-- Nothing in a well-named select could be taken for a marker. -/
theorem WellNamed.unmarked {select : Select} (h : select.WellNamed) : Unmarked select.symbols := by
  obtain ⟨htable, hclauses, horders⟩ := h
  have hend : Unmarked (letters (if select.allowFiltering then " ALLOW FILTERING;" else ";")) := by
    cases select.allowFiltering <;> exact Unmarked.of_letters (by decide)
  exact (Unmarked.of_letters (by decide)).append ((legible_word.unmarked _ htable.isWord).append
    ((unmarked_where hclauses).append
      ((legible_order.unmarked_introduced horders (by decide) (by decide)).append
        ((legible_number.unmarked_introduced (fun _ _ => trivial) (by decide) (by decide)).append
          hend))))

/-- A select is known from its symbols, but for the nesting of its conjunctions. -/
theorem flat_eq_of_symbols {select other : Select} (h : select.WellNamed) (h' : other.WellNamed)
    (heq : select.symbols = other.symbols) : select.flat = other.flat := by
  have hends : ∀ select : Select, Opens [" ALLOW FILTERING;", ";"]
      (letters (if select.allowFiltering then " ALLOW FILTERING;" else ";")) := by
    intro select
    cases select.allowFiltering <;> exact .of_text (by decide)
  have hlimits := fun select : Select =>
    (hends select).introduced (fun limit => letters (toString limit)) " LIMIT " ", "
      select.limit.toList
  have horders := fun select : Select =>
    (hlimits select).introduced orderSymbols " ORDER BY " ", " select.orders
  have hclauses := fun select : Select =>
    (horders select).introduced Clause.symbols " WHERE " " AND " select.clauses
  obtain ⟨htable, heq⟩ := legible_word.read _ _ _ _ h.1.isWord h'.1.isWord
    ((hclauses select).stops (by decide)) ((hclauses other).stops (by decide))
    (List.append_cancel_left heq)
  obtain ⟨hclause, heq⟩ := read_where h.2.1 h'.2.1 (horders select) (horders other) (by decide)
    (by decide) (by decide) heq
  obtain ⟨horder, heq⟩ := legible_order.read_introduced h.2.2 h'.2.2 (hlimits select)
    (hlimits other) (by decide) (by decide) (by decide) heq
  obtain ⟨hlimit, heq⟩ := legible_number.read_introduced (fun _ _ => trivial) (fun _ _ => trivial)
    (hends select) (hends other) (by decide) (by decide) (by decide) heq
  have hfiltering : select.allowFiltering = other.allowFiltering := by
    have hend := letters_injective heq
    cases hallow : select.allowFiltering <;> cases hallow' : other.allowFiltering <;>
      rw [hallow, hallow'] at hend
    · exact absurd hend (by decide)
    · exact absurd hend (by decide)
  have hsame : select.limit = other.limit := by
    have hhead := congrArg List.head? hlimit
    rwa [Option.head?_toList, Option.head?_toList] at hhead
  rw [flat, flat, htable, hclause, horder, hsame, hfiltering]

end Select

namespace Insert

/-- The table and all columns of an insert are identifiers. -/
def WellNamed (insert : Insert) : Prop :=
  IsIdentifier insert.table ∧ ∀ pair ∈ insert.values, IsIdentifier pair.1

instance (insert : Insert) : Decidable insert.WellNamed :=
  inferInstanceAs (Decidable (_ ∧ _))

/-- The columns of a well-named insert are words. -/
theorem WellNamed.isWord_columns {insert : Insert} (h : insert.WellNamed) :
    ∀ column ∈ insert.values.map (·.1), IsWord column :=
  List.forall_mem_map.mpr fun pair hpair => (h.2 pair hpair).isWord

/-- Nothing in a well-named insert could be taken for a marker. -/
theorem WellNamed.unmarked {insert : Insert} (h : insert.WellNamed) : Unmarked insert.symbols :=
  (Unmarked.of_letters (by decide)).append ((legible_word.unmarked _ h.1.isWord).append
    ((Unmarked.of_letters (by decide)).append
      ((legible_word.unmarked_separated h.isWord_columns (by decide)).append
        ((Unmarked.of_letters (by decide)).append
          ((legible_value.unmarked_separated (fun _ _ => trivial) (by decide)).append
            (.of_letters (by decide)))))))

/-- An insert is known from its symbols. -/
theorem eq_of_symbols {insert other : Insert} (h : insert.WellNamed) (h' : other.WellNamed)
    (heq : insert.symbols = other.symbols) : insert = other := by
  have hcolumnsEnd : ") VALUES (" ∈ [") VALUES ("] := List.mem_cons_self
  have hvaluesEnd : ");" ∈ [");"] := List.mem_cons_self
  obtain ⟨htable, heq⟩ := read_word h.1.isWord h'.1.isWord (by decide) (by decide)
    (List.append_cancel_left heq)
  obtain ⟨hcolumns, heq⟩ := legible_word.read_separated h.isWord_columns h'.isWord_columns
    (.of_letters hcolumnsEnd _) (.of_letters hcolumnsEnd _) (by decide) (by decide)
    (List.append_cancel_left heq)
  obtain ⟨hvalues, -⟩ := legible_value.read_separated (fun _ _ => trivial) (fun _ _ => trivial)
    (.of_text hvaluesEnd) (.of_text hvaluesEnd) (by decide) (by decide)
    (List.append_cancel_left heq)
  have hpairs : insert.values = other.values := by
    rw [List.zip_of_prod hcolumns hvalues]
    exact (List.zip_of_prod rfl rfl).symm
  cases insert
  cases other
  rw [Insert.mk.injEq]
  exact ⟨htable, hpairs⟩

end Insert

namespace Update

/-- The table and all columns of an update are identifiers. -/
def WellNamed (update : Update) : Prop :=
  IsIdentifier update.table ∧
    (∀ assignment ∈ update.assignments, IsIdentifier assignment.column) ∧
    ∀ clause ∈ update.clauses, clause.WellNamed

instance (update : Update) : Decidable update.WellNamed :=
  inferInstanceAs (Decidable (_ ∧ _ ∧ _))

/-- The update with its conjunctions taken apart. -/
def flat (update : Update) : Update :=
  { update with clauses := update.clauses.flatMap Clause.leaves }

/-- The symbols of an update are those of the update with its conjunctions taken apart. -/
theorem symbols_flat (update : Update) : update.flat.symbols = update.symbols := by
  rw [symbols, symbols, flat, whereSymbols_leaves]

/-- Nothing in a well-named update could be taken for a marker. -/
theorem WellNamed.unmarked {update : Update} (h : update.WellNamed) : Unmarked update.symbols :=
  (Unmarked.of_letters (by decide)).append ((legible_word.unmarked _ h.1.isWord).append
    ((Unmarked.of_letters (by decide)).append
      ((legible_assignment.unmarked_separated h.2.1 (by decide)).append
        ((unmarked_where h.2.2).append (.of_letters (by decide))))))

/-- An update is known from its symbols, but for the nesting of its conjunctions. -/
theorem flat_eq_of_symbols {update other : Update} (h : update.WellNamed) (h' : other.WellNamed)
    (heq : update.symbols = other.symbols) : update.flat = other.flat := by
  have hend : Opens [";"] (letters ";") := .of_text List.mem_cons_self
  have hclauses := fun update : Update =>
    hend.introduced Clause.symbols " WHERE " " AND " update.clauses
  obtain ⟨htable, heq⟩ := read_word h.1.isWord h'.1.isWord (by decide) (by decide)
    (List.append_cancel_left heq)
  obtain ⟨hassignments, heq⟩ := legible_assignment.read_separated h.2.1 h'.2.1 (hclauses update)
    (hclauses other) (by decide) (by decide) (List.append_cancel_left heq)
  obtain ⟨hclause, -⟩ := read_where h.2.2 h'.2.2 hend hend (by decide) (by decide) (by decide) heq
  rw [flat, flat, htable, hassignments, hclause]

end Update

namespace Delete

/-- The table and all columns of a delete are identifiers. -/
def WellNamed (delete : Delete) : Prop :=
  IsIdentifier delete.table ∧ ∀ clause ∈ delete.clauses, clause.WellNamed

instance (delete : Delete) : Decidable delete.WellNamed :=
  inferInstanceAs (Decidable (_ ∧ _))

/-- The delete with its conjunctions taken apart. -/
def flat (delete : Delete) : Delete :=
  { delete with clauses := delete.clauses.flatMap Clause.leaves }

/-- The symbols of a delete are those of the delete with its conjunctions taken apart. -/
theorem symbols_flat (delete : Delete) : delete.flat.symbols = delete.symbols := by
  rw [symbols, symbols, flat, whereSymbols_leaves]

/-- Nothing in a well-named delete could be taken for a marker. -/
theorem WellNamed.unmarked {delete : Delete} (h : delete.WellNamed) : Unmarked delete.symbols :=
  (Unmarked.of_letters (by decide)).append ((legible_word.unmarked _ h.1.isWord).append
    ((unmarked_where h.2).append (.of_letters (by decide))))

/-- A delete is known from its symbols, but for the nesting of its conjunctions. -/
theorem flat_eq_of_symbols {delete other : Delete} (h : delete.WellNamed) (h' : other.WellNamed)
    (heq : delete.symbols = other.symbols) : delete.flat = other.flat := by
  have hend : Opens [";"] (letters ";") := .of_text List.mem_cons_self
  have hclauses := fun delete : Delete =>
    hend.introduced Clause.symbols " WHERE " " AND " delete.clauses
  obtain ⟨htable, heq⟩ := legible_word.read _ _ _ _ h.1.isWord h'.1.isWord
    ((hclauses delete).stops (by decide)) ((hclauses other).stops (by decide))
    (List.append_cancel_left heq)
  obtain ⟨hclause, -⟩ := read_where h.2 h'.2 hend hend (by decide) (by decide) (by decide) heq
  rw [flat, flat, htable, hclause]

end Delete

namespace Statement

/-- The table and all columns of a statement are identifiers. -/
def WellNamed : Statement → Prop
  | insert s => s.WellNamed
  | update s => s.WellNamed
  | delete s => s.WellNamed

instance : (statement : Statement) → Decidable statement.WellNamed
  | insert s => inferInstanceAs (Decidable s.WellNamed)
  | update s => inferInstanceAs (Decidable s.WellNamed)
  | delete s => inferInstanceAs (Decidable s.WellNamed)

/-- The statement with its conjunctions taken apart. -/
def flat : Statement → Statement
  | insert s => insert s
  | update s => update s.flat
  | delete s => delete s.flat

/-- The symbols of a statement are those of the statement with its conjunctions taken apart. -/
theorem symbols_flat (statement : Statement) : statement.flat.symbols = statement.symbols := by
  cases statement with
  | insert s => rfl
  | update s => exact s.symbols_flat
  | delete s => exact s.symbols_flat

/-- Nothing in a well-named statement could be taken for a marker. -/
theorem WellNamed.unmarked {statement : Statement} (h : statement.WellNamed) :
    Unmarked statement.symbols := by
  cases statement with
  | insert s => exact Insert.WellNamed.unmarked h
  | update s => exact Update.WellNamed.unmarked h
  | delete s => exact Delete.WellNamed.unmarked h

/-- A statement begins with the keyword of its kind. -/
theorem opens_symbols (statement : Statement) :
    Opens ["INSERT INTO ", "UPDATE ", "DELETE FROM "] statement.symbols := by
  have hinsert : "INSERT INTO " ∈ ["INSERT INTO ", "UPDATE ", "DELETE FROM "] := by decide
  have hupdate : "UPDATE " ∈ ["INSERT INTO ", "UPDATE ", "DELETE FROM "] := by decide
  have hdelete : "DELETE FROM " ∈ ["INSERT INTO ", "UPDATE ", "DELETE FROM "] := by decide
  cases statement with
  | insert s => exact .of_letters hinsert _
  | update s => exact .of_letters hupdate _
  | delete s => exact .of_letters hdelete _

/-- A statement is known from its symbols, but for the nesting of its conjunctions. -/
theorem flat_eq_of_symbols {statement other : Statement} (h : statement.WellNamed)
    (h' : other.WellNamed) (heq : statement.symbols = other.symbols) :
    statement.flat = other.flat := by
  have hinsertUpdate : apart "INSERT INTO " "UPDATE " = true := by decide
  have hinsertDelete : apart "INSERT INTO " "DELETE FROM " = true := by decide
  have hupdateDelete : apart "UPDATE " "DELETE FROM " = true := by decide
  cases statement with
  | insert s =>
    cases other with
    | insert t => exact congrArg Statement.insert (Insert.eq_of_symbols h h' heq)
    | update t => exact absurd heq (letters_append_ne hinsertUpdate _ _)
    | delete t => exact absurd heq (letters_append_ne hinsertDelete _ _)
  | update s =>
    cases other with
    | insert t => exact absurd heq.symm (letters_append_ne hinsertUpdate _ _)
    | update t => exact congrArg Statement.update (Update.flat_eq_of_symbols h h' heq)
    | delete t => exact absurd heq (letters_append_ne hupdateDelete _ _)
  | delete s =>
    cases other with
    | insert t => exact absurd heq.symm (letters_append_ne hinsertDelete _ _)
    | update t => exact absurd heq.symm (letters_append_ne hupdateDelete _ _)
    | delete t => exact congrArg Statement.delete (Delete.flat_eq_of_symbols h h' heq)

end Statement

/-- What is sent to the store: a request for rows or a change. -/
inductive Command where
  | select (select : Select)
  | change (statement : Statement)
deriving DecidableEq

namespace Command

/-- The text of a command. -/
def bound : Command → BoundText
  | select s => s.bound
  | change s => s.bound

/-- The symbols of a command. -/
def symbols : Command → List Symbol
  | select s => s.symbols
  | change s => s.symbols

/-- The table and all columns of a command are identifiers. -/
def WellNamed : Command → Prop
  | select s => s.WellNamed
  | change s => s.WellNamed

instance : (command : Command) → Decidable command.WellNamed
  | select s => inferInstanceAs (Decidable s.WellNamed)
  | change s => inferInstanceAs (Decidable s.WellNamed)

/-- The command with its conjunctions taken apart. -/
def flat : Command → Command
  | select s => select s.flat
  | change s => change s.flat

/-- The text of a command is that of its symbols. -/
theorem bound_eq (command : Command) : command.bound = .ofSymbols command.symbols := by
  cases command with
  | select s => exact s.bound_eq
  | change s => exact s.bound_eq

/-- The symbols of a command are those of the command with its conjunctions taken apart. -/
theorem symbols_flat (command : Command) : command.flat.symbols = command.symbols := by
  cases command with
  | select s => exact s.symbols_flat
  | change s => exact s.symbols_flat

/-- Nothing in a well-named command could be taken for a marker. -/
theorem WellNamed.unmarked {command : Command} (h : command.WellNamed) :
    Unmarked command.symbols := by
  cases command with
  | select s => exact Select.WellNamed.unmarked h
  | change s => exact Statement.WellNamed.unmarked h

/-- A command is known from its symbols, but for the nesting of its conjunctions. -/
theorem flat_eq_of_symbols {command other : Command} (h : command.WellNamed)
    (h' : other.WellNamed) (heq : command.symbols = other.symbols) : command.flat = other.flat := by
  have hselect :
      ["INSERT INTO ", "UPDATE ", "DELETE FROM "].all (apart "SELECT * FROM ") = true := by
    decide
  cases command with
  | select s =>
    cases other with
    | select t => exact congrArg Command.select (Select.flat_eq_of_symbols h h' heq)
    | change t => exact absurd heq (t.opens_symbols.ne hselect _)
  | change s =>
    cases other with
    | select t => exact absurd heq.symm (s.opens_symbols.ne hselect _)
    | change t => exact congrArg Command.change (Statement.flat_eq_of_symbols h h' heq)

/-- What the text and the values of well-named commands tell of them. The text shows the symbols of
the command in their order, with a marker in the place of every value and nowhere else, and the
values are those in the places of the markers. Two commands have the same text and values exactly if
they are the same but for the way in which their conjunctions are nested. -/
theorem read_bound (command : Command) (h : command.WellNamed) :
    (command.bound = .ofSymbols command.symbols ∧ Unmarked command.symbols ∧
      command.bound.text.toList.count '?' = command.bound.values.length) ∧
    ∀ other : Command, other.WellNamed →
      (command.bound = other.bound ↔ command.flat = other.flat) := by
  refine ⟨⟨command.bound_eq, h.unmarked, ?_⟩, fun other hother => ⟨fun heq => ?_, fun heq => ?_⟩⟩
  · rw [bound_eq]
    exact h.unmarked.count_eq
  · rw [bound_eq, bound_eq] at heq
    exact flat_eq_of_symbols h hother (h.unmarked.eq_of_ofSymbols hother.unmarked heq)
  · rw [bound_eq, bound_eq, ← command.symbols_flat, heq, other.symbols_flat]

/-- A select with nested conjunctions, a token range and every other part. -/
def nestedSelect : Select where
  table := "vertices"
  clauses := [.and (.and (.eq "ID" (.text "1")) (.isIn "LABEL" [.text "a", .text "b"]))
    (.and (.tokenAtLeast ["ID"] "-5") (.tokenBelow ["ID"] "7")),
    .containsKey "PROPERTIES" (.text "age")]
  orders := [("ID", .descending)]
  limit := some 10
  allowFiltering := true

/-- The conjunctions of a select can be taken apart without a change of its text and values, but
nothing else can be. -/
theorem read_bound_nestedSelect :
    (select nestedSelect).bound = (select nestedSelect.flat).bound ∧
      nestedSelect ≠ nestedSelect.flat ∧ (select nestedSelect).bound.values.length = 4 ∧
      (select nestedSelect).bound.text.toList.count '?' = 4 ∧
      (select nestedSelect).bound ≠ (select { nestedSelect with limit := none }).bound := by
  have hflat : nestedSelect.flat.flat = nestedSelect.flat := by decide +kernel
  have hlimit : nestedSelect.flat ≠ ({ nestedSelect with limit := none } : Select).flat := by
    decide +kernel
  have hvalues : (select nestedSelect).bound.values.length = 4 := by decide +kernel
  obtain ⟨⟨-, -, hcount⟩, hsame⟩ := read_bound (select nestedSelect) (by decide +kernel)
  refine ⟨(hsame (select nestedSelect.flat) (by decide +kernel)).mpr (congrArg select hflat.symm),
    by decide +kernel, hvalues, hcount.trans hvalues, fun heq => hlimit ?_⟩
  exact Command.select.inj
    ((hsame (select { nestedSelect with limit := none }) (by decide +kernel)).mp heq)

end Command

end WideGraph
