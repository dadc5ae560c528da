import WideGraph.Statement.Basic

/-!
# Statements as symbols

The text of a statement shows nothing of its values but a marker in the place of each. Here a
statement is written once more, with the values themselves in their places. The text and the list of
values that are sent are this row of symbols taken apart, and as long as no name has a question mark
in it, nothing of the row is lost.
-/

namespace WideGraph

/-- What stands in a statement: a character, or a value that is bound in its place. -/
inductive Symbol where
  | char (c : Char)
  | value (value : Value)
deriving DecidableEq

namespace Symbol

/-- The character that stands in the text for a symbol, the marker for a value. -/
def shown : Symbol → Char
  | char c => c
  | value _ => '?'

/-- The value that is bound in the place of a symbol. -/
def value? : Symbol → Option Value
  | char _ => none
  | value v => some v

end Symbol

/-- The characters of a text as symbols. -/
def letters (text : String) : List Symbol :=
  text.toList.map .char

section Writing

variable {α : Type} (f : α → List Symbol)

/-- The symbols of several items, with a separator between any two. -/
def separated (separator : String) : List α → List Symbol
  | [] => []
  | item :: rest => f item ++ rest.flatMap fun next => letters separator ++ f next

/-- The symbols of several items after a keyword, without which there are no items. -/
def introduced (keyword separator : String) : List α → List Symbol
  | [] => []
  | item :: rest => letters keyword ++ separated f separator (item :: rest)

end Writing

/-- The symbols of a clause. -/
def Clause.symbols : Clause → List Symbol
  | .compare comparison column value =>
    letters column ++ letters (" " ++ comparison.sign ++ " ") ++ [.value value]
  | .isIn column values =>
    letters column ++ letters " IN (" ++ separated (fun value => [.value value]) ", " values ++
      letters ")"
  | .containsKey column value => letters column ++ letters " CONTAINS KEY " ++ [.value value]
  | .tokenAtLeast columns token =>
    letters "token" ++ letters "(" ++ separated letters ", " columns ++ letters ") >= " ++
      letters token
  | .tokenBelow columns token =>
    letters "token" ++ letters "(" ++ separated letters ", " columns ++ letters ") < " ++
      letters token
  | .and left right => left.symbols ++ letters " AND " ++ right.symbols

/-- The symbols of the restriction part of a statement. -/
def whereSymbols (clauses : List Clause) : List Symbol :=
  introduced Clause.symbols " WHERE " " AND " clauses

/-- The symbols of a column that orders rows, with its direction. -/
def orderSymbols (order : String × SortOrder) : List Symbol :=
  letters order.1 ++ letters " " ++ letters order.2.word

/-- The symbols of a select. -/
def Select.symbols (select : Select) : List Symbol :=
  letters "SELECT * FROM " ++ (letters select.table ++ (whereSymbols select.clauses ++
    (introduced orderSymbols " ORDER BY " ", " select.orders ++
      (introduced (fun limit => letters (toString limit)) " LIMIT " ", " select.limit.toList ++
        letters (if select.allowFiltering then " ALLOW FILTERING;" else ";")))))

/-- The symbols of an insert. -/
def Insert.symbols (insert : Insert) : List Symbol :=
  letters "INSERT INTO " ++ (letters insert.table ++ (letters " (" ++
    (separated letters ", " (insert.values.map (·.1)) ++ (letters ") VALUES (" ++
      (separated (fun value => [.value value]) ", " (insert.values.map (·.2)) ++ letters ");")))))

/-- The symbols of what an assignment adds or takes out. -/
def Assignment.changeSymbols : Assignment → List Symbol
  | .append _ value => letters " + " ++ [.value value]
  | .removeAll _ value => letters " - " ++ [.value value]
  | .remove _ value => letters " - " ++ (letters "\x7b" ++ ([.value value] ++ letters "\x7d"))

/-- The symbols of an assignment. -/
def Assignment.symbols (assignment : Assignment) : List Symbol :=
  letters assignment.column ++ (letters " = " ++ (letters assignment.column ++
    assignment.changeSymbols))

/-- The symbols of an update. -/
def Update.symbols (update : Update) : List Symbol :=
  letters "UPDATE " ++ (letters update.table ++ (letters " SET " ++
    (separated Assignment.symbols ", " update.assignments ++ (whereSymbols update.clauses ++
      letters ";"))))

/-- The symbols of a delete. -/
def Delete.symbols (delete : Delete) : List Symbol :=
  letters "DELETE FROM " ++ (letters delete.table ++ (whereSymbols delete.clauses ++ letters ";"))

/-- The symbols of a statement. -/
def Statement.symbols : Statement → List Symbol
  | .insert s => s.symbols
  | .update s => s.symbols
  | .delete s => s.symbols

namespace BoundText

/-- A text with a marker for each value among some symbols, and these values. -/
def ofSymbols (symbols : List Symbol) : BoundText :=
  ⟨String.ofList (symbols.map Symbol.shown), symbols.filterMap Symbol.value?⟩

theorem append_eq (a b : BoundText) : a ++ b = ⟨a.text ++ b.text, a.values ++ b.values⟩ :=
  rfl

@[simp] theorem ofSymbols_append (a b : List Symbol) :
    ofSymbols (a ++ b) = ofSymbols a ++ ofSymbols b := by
  simp [ofSymbols, append_eq]

@[simp] theorem ofSymbols_letters (text : String) : ofSymbols (letters text) = plain text := by
  have hvalues : text.toList.filterMap (Symbol.value? ∘ Symbol.char) = [] := by
    rw [List.filterMap_eq_nil_iff]
    exact fun _ _ => rfl
  have hshown : text.toList.map (Symbol.shown ∘ Symbol.char) = text.toList := List.map_id _
  rw [ofSymbols, letters, List.map_map, List.filterMap_map, hvalues, hshown, String.ofList_toList]
  rfl

@[simp] theorem ofSymbols_value (value : Value) : ofSymbols [.value value] = ⟨"?", [value]⟩ :=
  rfl

theorem append_assoc (a b c : BoundText) : a ++ b ++ c = a ++ (b ++ c) := by
  simp [append_eq, String.append_assoc]

theorem plain_append (a b : String) : plain (a ++ b) = plain a ++ plain b := by
  simp [append_eq, plain]

/-- Items are separated in their text as they are in their symbols. -/
theorem ofSymbols_separated {α : Type} (f : α → List Symbol) (separator : String)
    (items : List α) :
    ofSymbols (separated f separator items) =
      joined separator (items.map fun item => ofSymbols (f item)) := by
  induction items with
  | nil => rfl
  | cons item rest ih =>
    cases rest with
    | nil => simp [separated, joined]
    | cons next rest =>
      have htail : separated f separator (item :: next :: rest) =
          f item ++ letters separator ++ separated f separator (next :: rest) := by
        simp [separated]
      rw [htail, ofSymbols_append, ofSymbols_append, ofSymbols_letters, ih]
      rfl

/-- Texts that are joined are separated as plain texts, and their values follow one another. -/
theorem joined_eq (separator : String) (parts : List BoundText) :
    joined separator parts =
      ⟨separator.intercalate (parts.map (·.text)), parts.flatMap (·.values)⟩ := by
  induction parts with
  | nil => simp [joined, plain]
  | cons part rest ih =>
    cases rest with
    | nil => simp [joined]
    | cons next rest =>
      rw [joined, ih]
      simp [append_eq, plain, String.append_assoc]

/-- The symbols of names are shown as the names. -/
theorem ofSymbols_names (separator : String) (names : List String) :
    ofSymbols (separated letters separator names) = plain (separator.intercalate names) := by
  rw [ofSymbols_separated, joined_eq]
  simp [plain, Function.comp_def]

/-- Values are shown as markers. -/
theorem ofSymbols_values (values : List Value) :
    ofSymbols (separated (fun value => [.value value]) ", " values) = ⟨markers values, values⟩ := by
  rw [ofSymbols_separated, joined_eq]
  simp [markers, Function.comp_def, List.flatMap_map]

/-- The introduced items of a statement are shown after their keyword, if there are any. -/
theorem ofSymbols_introduced {α : Type} (f : α → List Symbol) (keyword separator : String)
    (items : List α) :
    ofSymbols (introduced f keyword separator items) =
      if items = [] then plain "" else
        plain keyword ++ joined separator (items.map fun item => ofSymbols (f item)) := by
  cases items with
  | nil => rfl
  | cons item rest =>
    rw [introduced, ofSymbols_append, ofSymbols_letters, ofSymbols_separated]
    rfl

end BoundText

open BoundText

/-- The text of a clause is that of its symbols. -/
theorem Clause.bound_eq (clause : Clause) : clause.bound = ofSymbols clause.symbols := by
  have htoken : "token(" = "token" ++ "(" := rfl
  induction clause with
  | compare comparison column value =>
    simp [bound, symbols, append_eq, plain, String.append_assoc]
  | isIn column values =>
    simp [bound, symbols, ofSymbols_values, append_eq, plain, String.append_assoc]
  | containsKey column value => simp [bound, symbols, append_eq, plain]
  | tokenAtLeast columns token =>
    simp only [bound, htoken, symbols, ofSymbols_append, ofSymbols_letters, ofSymbols_names,
      plain_append]
  | tokenBelow columns token =>
    simp only [bound, htoken, symbols, ofSymbols_append, ofSymbols_letters, ofSymbols_names,
      plain_append]
  | and left right hleft hright => simp [bound, symbols, hleft, hright, append_assoc]

/-- The restriction part of a statement is that of its symbols. -/
theorem whereText_eq (clauses : List Clause) :
    whereText clauses = ofSymbols (whereSymbols clauses) := by
  rw [whereSymbols, ofSymbols_introduced, whereText, funext Clause.bound_eq]

/-- The orders of a select are shown as its text has them. -/
theorem ofSymbols_orders (orders : List (String × SortOrder)) :
    ofSymbols (introduced orderSymbols " ORDER BY " ", " orders) =
      plain (if orders.map (fun order => order.1 ++ " " ++ order.2.word) = [] then "" else
        " ORDER BY " ++
          ", ".intercalate (orders.map fun order => order.1 ++ " " ++ order.2.word)) := by
  have horder : (fun order => ofSymbols (orderSymbols order)) =
      fun order => plain (order.1 ++ " " ++ order.2.word) := by
    funext order
    simp [orderSymbols, plain_append, append_assoc]
  rw [ofSymbols_introduced, horder, joined_eq]
  cases orders with
  | nil => rfl
  | cons order rest => simp [append_eq, plain, Function.comp_def, List.flatMap_map]

/-- A limit is shown as the text of a select has it. -/
theorem ofSymbols_limit (limit : Nat) :
    ofSymbols (introduced (fun limit => letters (toString limit)) " LIMIT " ", " [limit]) =
      plain (" LIMIT " ++ toString limit) := by
  simp [introduced, separated, plain_append]

/-- The text of a select is that of its symbols. -/
theorem Select.bound_eq (select : Select) : select.bound = ofSymbols select.symbols := by
  obtain ⟨table, clauses, orders, limit, allowFiltering⟩ := select
  have hfiltering : plain (if allowFiltering then " ALLOW FILTERING;" else ";") =
      plain (if allowFiltering then " ALLOW FILTERING" else "") ++ plain ";" := by
    cases allowFiltering <;> rfl
  have hunlimited : ofSymbols
      (introduced (fun limit : Nat => letters (toString limit)) " LIMIT " ", " []) = plain "" := rfl
  rw [Select.bound, symbols]
  cases limit with
  | none =>
    simp only [ofSymbols_append, ofSymbols_letters, ofSymbols_orders, Option.toList_none,
      hunlimited, hfiltering, whereText_eq, plain_append, append_assoc]
  | some limit =>
    simp only [ofSymbols_append, ofSymbols_letters, ofSymbols_orders, Option.toList_some,
      ofSymbols_limit, hfiltering, whereText_eq, plain_append, append_assoc]

/-- The text of an insert is that of its symbols. -/
theorem Insert.bound_eq (insert : Insert) : insert.bound = ofSymbols insert.symbols := by
  unfold Insert.bound
  simp only [symbols, ofSymbols_append, ofSymbols_letters, ofSymbols_names, ofSymbols_values,
    append_eq, plain, markers, String.append_assoc, List.nil_append, List.append_nil, List.map_map,
    Function.comp_def]

/-- The text of an assignment is that of its symbols. -/
theorem Assignment.bound_eq (assignment : Assignment) :
    assignment.bound = ofSymbols assignment.symbols := by
  have hbraces : " - \x7b?\x7d" = " - " ++ ("\x7b" ++ ("?" ++ "\x7d")) := rfl
  cases assignment with
  | append column value =>
    simp [bound, symbols, changeSymbols, Assignment.column, append_eq, plain, String.append_assoc]
  | removeAll column value =>
    simp [bound, symbols, changeSymbols, Assignment.column, append_eq, plain, String.append_assoc]
  | remove column value =>
    simp only [bound, hbraces, symbols, changeSymbols, Assignment.column, ofSymbols_append,
      ofSymbols_letters, ofSymbols_value, append_eq, plain, String.append_assoc]
    rfl

/-- The text of an update is that of its symbols. -/
theorem Update.bound_eq (update : Update) : update.bound = ofSymbols update.symbols := by
  rw [Update.bound, symbols, funext Assignment.bound_eq]
  simp only [ofSymbols_append, ofSymbols_letters, ofSymbols_separated, whereText_eq, plain_append,
    append_assoc]

/-- The text of a delete is that of its symbols. -/
theorem Delete.bound_eq (delete : Delete) : delete.bound = ofSymbols delete.symbols := by
  rw [Delete.bound, symbols]
  simp only [ofSymbols_append, ofSymbols_letters, whereText_eq, plain_append, append_assoc]

/-- The text of a statement is that of its symbols. -/
theorem Statement.bound_eq (statement : Statement) :
    statement.bound = ofSymbols statement.symbols := by
  cases statement with
  | insert s => exact s.bound_eq
  | update s => exact s.bound_eq
  | delete s => exact s.bound_eq

/-- No character of some symbols could be taken for a marker. -/
def Unmarked (symbols : List Symbol) : Prop :=
  ∀ symbol ∈ symbols, symbol ≠ .char '?'

namespace Unmarked

variable {symbols others : List Symbol}

/-- A text of unmarked symbols has a marker for every value and no other. -/
theorem count_eq (h : Unmarked symbols) :
    (ofSymbols symbols).text.toList.count '?' = (ofSymbols symbols).values.length := by
  rw [ofSymbols, String.toList_ofList]
  induction symbols with
  | nil => rfl
  | cons symbol rest ih =>
    obtain ⟨hne, hrest⟩ := List.forall_mem_cons.mp h
    cases symbol with
    | char c =>
      have hc : c ≠ '?' := fun heq => hne (heq ▸ rfl)
      rw [List.map_cons, Symbol.shown, List.count_cons_of_ne hc, ih hrest]
      rfl
    | value v =>
      rw [List.map_cons, Symbol.shown, List.count_cons_self, ih hrest]
      rfl

/-- Unmarked symbols are known from their text and their values. -/
theorem eq_of_ofSymbols (h : Unmarked symbols) (hothers : Unmarked others)
    (heq : ofSymbols symbols = ofSymbols others) : symbols = others := by
  rw [ofSymbols, ofSymbols, BoundText.mk.injEq, String.ofList_inj] at heq
  obtain ⟨hshown, hvalues⟩ := heq
  induction symbols generalizing others with
  | nil =>
    cases others with
    | nil => rfl
    | cons other rest => cases hshown
  | cons symbol rest ih =>
    cases others with
    | nil => cases hshown
    | cons other rest' =>
      obtain ⟨hne, hrest⟩ := List.forall_mem_cons.mp h
      obtain ⟨hne', hrest'⟩ := List.forall_mem_cons.mp hothers
      obtain ⟨hhead, htail⟩ := List.cons.inj hshown
      cases symbol with
      | char c =>
        cases other with
        | char d =>
          cases hhead
          rw [ih hrest hrest' htail hvalues]
        | value w =>
          cases hhead
          exact absurd rfl hne
      | value v =>
        cases other with
        | char d =>
          cases hhead
          exact absurd rfl hne'
        | value w =>
          obtain ⟨rfl, hrestValues⟩ := List.cons.inj hvalues
          rw [ih hrest hrest' htail hrestValues]

end Unmarked

/-- Items follow items after one more separator. -/
theorem separated_append {α : Type} {f : α → List Symbol} {separator : String}
    {items others : List α} (hitems : items ≠ []) (hothers : others ≠ []) :
    separated f separator (items ++ others) =
      separated f separator items ++ letters separator ++ separated f separator others := by
  cases items with
  | nil => exact absurd rfl hitems
  | cons item rest =>
    cases others with
    | nil => exact absurd rfl hothers
    | cons other rest' => simp [separated]

/-- A clause joins at least one. -/
theorem Clause.leaves_ne_nil (clause : Clause) : clause.leaves ≠ [] := by
  induction clause with
  | and left right hleft hright => simp [leaves, hleft]
  | _ => exact List.cons_ne_nil _ _

/-- A clause is written like the clauses that it joins. -/
theorem Clause.separated_leaves (clause : Clause) :
    separated symbols " AND " clause.leaves = clause.symbols := by
  induction clause with
  | and left right hleft hright =>
    rw [leaves, separated_append left.leaves_ne_nil right.leaves_ne_nil, hleft, hright, symbols]
  | _ => simp [leaves, separated]

/-- Clauses are written like all the clauses that they join. -/
theorem separated_flatMap_leaves (clauses : List Clause) :
    separated Clause.symbols " AND " (clauses.flatMap Clause.leaves) =
      separated Clause.symbols " AND " clauses := by
  induction clauses with
  | nil => rfl
  | cons clause rest ih =>
    cases rest with
    | nil => simpa [separated] using clause.separated_leaves
    | cons next rest =>
      have hne : (next :: rest).flatMap Clause.leaves ≠ [] := by
        simp [next.leaves_ne_nil]
      rw [List.flatMap_cons, separated_append clause.leaves_ne_nil hne, ih, clause.separated_leaves]
      simp [separated]

/-- A restriction is written as if its conjunctions were not nested. -/
theorem whereSymbols_leaves (clauses : List Clause) :
    whereSymbols (clauses.flatMap Clause.leaves) = whereSymbols clauses := by
  cases clauses with
  | nil => rfl
  | cons clause rest =>
    have hall := separated_flatMap_leaves (clause :: rest)
    rw [whereSymbols, whereSymbols, introduced.eq_def]
    split
    · rename_i hnil
      exact absurd hnil (by simp [clause.leaves_ne_nil])
    · rename_i leaf leaves hleaves
      rw [introduced, ← hleaves, hall]

end WideGraph
