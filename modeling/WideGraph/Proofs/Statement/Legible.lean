import Mathlib.Data.List.Basic
import WideGraph.Proofs.Statement.Symbols
import WideGraph.Proofs.Text.WordLiteral

/-!
# Reading symbols from the left

A name or numeral ends where a symbol stands that cannot be part of one, and whatever may come next
at any other place of a statement begins with one of a few texts that differ from each other before
any of them ends. Items that can be read off in this way can also be read off from a list of them,
separated from each other and with or without a keyword in front.
-/

namespace WideGraph

/-- Whether a character may be part of a name. -/
def isNameChar (c : Char) : Bool :=
  c.isAlphanum || c == '_'

/-- A name is not empty and made of letters, digits and underscores. -/
def IsIdentifier (name : String) : Prop :=
  name ≠ "" ∧ name.toList.all isNameChar = true

/-- A text writes a whole number with an optional sign. -/
def IsIntegerLiteral (text : String) : Prop :=
  (Text.integer? text.toList).isSome = true

/-- Whether a character may be part of a name or of a numeral. -/
def isWordChar (c : Char) : Bool :=
  isNameChar c || c == '-' || c == '+'

/-- A text is not empty and made of such characters. -/
def IsWord (text : String) : Prop :=
  text ≠ "" ∧ text.toList.all isWordChar = true

instance (name : String) : Decidable (IsIdentifier name) :=
  inferInstanceAs (Decidable (_ ∧ _))

instance (text : String) : Decidable (IsIntegerLiteral text) :=
  inferInstanceAs (Decidable (_ = _))

instance (text : String) : Decidable (IsWord text) :=
  inferInstanceAs (Decidable (_ ∧ _))

/-- Whether a text begins with a character that ends a word. -/
def delimits (text : String) : Bool :=
  text.toList.head?.any fun c => !isWordChar c

/-- Whether two texts differ before either of them ends. -/
def apart (a b : String) : Bool :=
  !a.toList.isPrefixOf b.toList && !b.toList.isPrefixOf a.toList

/-- Symbols with which neither a word goes on nor an item of a statement begins: there are none, or
they begin with a character that ends a word. -/
def Stops (symbols : List Symbol) : Prop :=
  ∀ symbol ∈ symbols.head?, ∃ c, symbol = .char c ∧ isWordChar c = false

/-- Symbols begin with one of some texts. -/
def Opens (texts : List String) (symbols : List Symbol) : Prop :=
  ∃ text ∈ texts, ∃ rest, symbols = letters text ++ rest

/-- Items of a kind can be told apart and read off from the front of what they are written into, as
long as what follows stops a word. None of them begins like that itself or has a marker among its
characters. -/
structure Legible {α : Type} (p : α → Prop) (f : α → List Symbol) : Prop where
  unmarked : ∀ a, p a → Unmarked (f a)
  starts : ∀ a rest, p a → ¬Stops (f a ++ rest)
  read : ∀ a b rest rest', p a → p b → Stops rest → Stops rest' → f a ++ rest = f b ++ rest' →
    a = b ∧ rest = rest'

/-- A text can be told from its letters. -/
theorem letters_injective : Function.Injective letters := by
  intro a b h
  exact String.toList_inj.mp (List.map_injective_iff.mpr (fun _ _ => Symbol.char.inj) h)

/-- What begins with one text does not begin with another that is apart from it. -/
theorem letters_append_ne {a b : String} (h : apart a b = true) (rest rest' : List Symbol) :
    letters a ++ rest ≠ letters b ++ rest' := by
  intro heq
  have hinjective : Function.Injective Symbol.char := fun _ _ => Symbol.char.inj
  rw [apart, Bool.and_eq_true, Bool.not_eq_true', Bool.not_eq_true', ← Bool.not_eq_true,
    ← Bool.not_eq_true, List.isPrefixOf_iff_prefix, List.isPrefixOf_iff_prefix] at h
  obtain hprefix | hprefix := List.prefix_or_prefix_of_prefix
    (List.prefix_append (letters a) rest) (heq ▸ List.prefix_append (letters b) rest')
  · exact h.1 ((List.prefix_map_iff_of_injective hinjective).mp hprefix)
  · exact h.2 ((List.prefix_map_iff_of_injective hinjective).mp hprefix)

/-- A text that begins with a delimiter stops a word. -/
theorem stops_letters {text : String} (h : delimits text = true) (rest : List Symbol) :
    Stops (letters text ++ rest) := by
  rw [delimits] at h
  cases hchars : text.toList with
  | nil =>
    rw [hchars] at h
    cases h
  | cons c chars =>
    rw [hchars, List.head?_cons, Option.any_some, Bool.not_eq_true'] at h
    rw [letters, hchars]
    rintro symbol ⟨⟩
    exact ⟨c, rfl, h⟩

namespace Opens

variable {texts : List String} {symbols : List Symbol}

/-- Symbols begin with the text that is written before others. -/
theorem of_letters {text : String} (h : text ∈ texts) (rest : List Symbol) :
    Opens texts (letters text ++ rest) :=
  ⟨text, h, rest, rfl⟩

/-- A text begins with itself. -/
theorem of_text {text : String} (h : text ∈ texts) : Opens texts (letters text) :=
  ⟨text, h, [], (List.append_nil _).symm⟩

/-- Symbols that begin with delimiters stop a word. -/
theorem stops (h : Opens texts symbols) (hdelimits : texts.all delimits = true) :
    Stops symbols := by
  obtain ⟨text, hmem, rest, rfl⟩ := h
  exact stops_letters (List.all_eq_true.mp hdelimits text hmem) rest

/-- Symbols do not begin with a text that is apart from all with which they begin. -/
theorem ne (h : Opens texts symbols) {text : String} (hapart : texts.all (apart text) = true)
    (rest : List Symbol) : letters text ++ rest ≠ symbols := by
  obtain ⟨other, hmem, rest', rfl⟩ := h
  exact letters_append_ne (List.all_eq_true.mp hapart other hmem) rest rest'

/-- What follows an item among separated ones stops a word. -/
theorem stops_following {α : Type} {f : α → List Symbol} {separator : String}
    (h : Opens texts symbols) (hdelimits : (separator :: texts).all delimits = true)
    (items : List α) :
    Stops ((items.flatMap fun item => letters separator ++ f item) ++ symbols) := by
  rw [List.all_cons, Bool.and_eq_true] at hdelimits
  cases items with
  | nil => exact h.stops hdelimits.2
  | cons item items =>
    rw [List.flatMap_cons, List.append_assoc, List.append_assoc]
    exact stops_letters hdelimits.1 _

/-- Introduced items begin with their keyword, or there are none. -/
theorem introduced {α : Type} (h : Opens texts symbols) (f : α → List Symbol)
    (keyword separator : String) (items : List α) :
    Opens (keyword :: texts) (introduced f keyword separator items ++ symbols) := by
  cases items with
  | nil =>
    obtain ⟨text, hmem, rest, rfl⟩ := h
    exact ⟨text, List.mem_cons_of_mem _ hmem, rest, rfl⟩
  | cons item rest =>
    rw [WideGraph.introduced, List.append_assoc]
    exact of_letters List.mem_cons_self _

end Opens

namespace Unmarked

variable {symbols others : List Symbol}

theorem append (h : Unmarked symbols) (hothers : Unmarked others) : Unmarked (symbols ++ others) :=
  List.forall_mem_append.mpr ⟨h, hothers⟩

/-- A text without question marks is unmarked. -/
theorem of_letters {text : String} (h : '?' ∉ text.toList) : Unmarked (letters text) := by
  rintro symbol hsymbol rfl
  obtain ⟨c, hc, heq⟩ := List.mem_map.mp hsymbol
  cases heq
  exact h hc

end Unmarked

namespace Legible

variable {α : Type} {p : α → Prop} {f : α → List Symbol} {keyword separator : String}
  {texts : List String} {items others : List α} {rest rest' : List Symbol}

section Lists

variable (h : Legible p f) (hitems : ∀ item ∈ items, p item)

include h hitems

/-- Separated items are unmarked. -/
theorem unmarked_separated (hseparator : '?' ∉ separator.toList) :
    Unmarked (separated f separator items) := by
  cases items with
  | nil => exact List.forall_mem_nil _
  | cons item rest =>
    obtain ⟨hitem, hrest⟩ := List.forall_mem_cons.mp hitems
    refine (h.unmarked item hitem).append fun symbol hsymbol => ?_
    obtain ⟨next, hnext, hsymbol⟩ := List.mem_flatMap.mp hsymbol
    exact (Unmarked.of_letters hseparator).append (h.unmarked next (hrest next hnext)) symbol
      hsymbol

/-- Introduced items are unmarked. -/
theorem unmarked_introduced (hkeyword : '?' ∉ keyword.toList)
    (hseparator : '?' ∉ separator.toList) :
    Unmarked (introduced f keyword separator items) := by
  cases items with
  | nil => exact List.forall_mem_nil _
  | cons item rest =>
    exact (Unmarked.of_letters hkeyword).append (h.unmarked_separated hitems hseparator)

variable (hothers : ∀ other ∈ others, p other)
  (hrest : Opens texts rest) (hrest' : Opens texts rest')
  (hdelimits : (separator :: texts).all delimits = true)
  (hapart : texts.all (apart separator) = true)

include hothers hrest hrest' hdelimits hapart

/-- Items that each follow a separator can be read off. -/
theorem read_following
    (heq : (items.flatMap fun item => letters separator ++ f item) ++ rest =
      (others.flatMap fun other => letters separator ++ f other) ++ rest') :
    items = others ∧ rest = rest' := by
  -- Where one list ends and the other goes on, what follows would begin with the separator.
  induction items generalizing others with
  | nil =>
    cases others with
    | nil => exact ⟨rfl, heq⟩
    | cons other others =>
      rw [List.flatMap_cons, List.append_assoc, List.append_assoc] at heq
      exact absurd heq.symm (hrest.ne hapart _)
  | cons item items ih =>
    cases others with
    | nil =>
      rw [List.flatMap_cons, List.append_assoc, List.append_assoc] at heq
      exact absurd heq (hrest'.ne hapart _)
    | cons other others =>
      obtain ⟨hitem, hitems⟩ := List.forall_mem_cons.mp hitems
      obtain ⟨hother, hothers⟩ := List.forall_mem_cons.mp hothers
      simp only [List.flatMap_cons, List.append_assoc, List.append_cancel_left_eq] at heq
      obtain ⟨hfirst, hfollowing⟩ := h.read item other _ _ hitem hother
        (hrest.stops_following hdelimits items) (hrest'.stops_following hdelimits others) heq
      obtain ⟨hsame, hend⟩ := ih hitems hothers hfollowing
      exact ⟨congrArg₂ List.cons hfirst hsame, hend⟩

/-- Separated items can be read off. -/
theorem read_separated
    (heq : separated f separator items ++ rest = separated f separator others ++ rest') :
    items = others ∧ rest = rest' := by
  have hstops := hrest.stops (Bool.and_eq_true_iff.mp hdelimits).2
  have hstops' := hrest'.stops (Bool.and_eq_true_iff.mp hdelimits).2
  cases items with
  | nil =>
    cases others with
    | nil => exact ⟨rfl, heq⟩
    | cons other others =>
      rw [separated, separated, List.append_assoc, List.nil_append] at heq
      exact absurd (heq ▸ hstops) (h.starts other _ (hothers other List.mem_cons_self))
  | cons item items =>
    cases others with
    | nil =>
      rw [separated, separated, List.append_assoc, List.nil_append] at heq
      exact absurd (heq ▸ hstops') (h.starts item _ (hitems item List.mem_cons_self))
    | cons other others =>
      obtain ⟨hitem, hitems⟩ := List.forall_mem_cons.mp hitems
      obtain ⟨hother, hothers⟩ := List.forall_mem_cons.mp hothers
      rw [separated, separated, List.append_assoc, List.append_assoc] at heq
      obtain ⟨hfirst, hfollowing⟩ := h.read item other _ _ hitem hother
        (hrest.stops_following hdelimits items) (hrest'.stops_following hdelimits others) heq
      obtain ⟨hsame, hend⟩ :=
        h.read_following hitems hothers hrest hrest' hdelimits hapart hfollowing
      exact ⟨congrArg₂ List.cons hfirst hsame, hend⟩

/-- Introduced items can be read off. -/
theorem read_introduced (hkeyword : texts.all (apart keyword) = true)
    (heq : introduced f keyword separator items ++ rest =
      introduced f keyword separator others ++ rest') :
    items = others ∧ rest = rest' := by
  cases items with
  | nil =>
    cases others with
    | nil => exact ⟨rfl, heq⟩
    | cons other others =>
      rw [introduced, introduced, List.append_assoc] at heq
      exact absurd heq.symm (hrest.ne hkeyword _)
  | cons item items =>
    cases others with
    | nil =>
      rw [introduced, introduced, List.append_assoc] at heq
      exact absurd heq (hrest'.ne hkeyword _)
    | cons other others =>
      rw [introduced, introduced, List.append_assoc, List.append_assoc,
        List.append_cancel_left_eq] at heq
      exact h.read_separated hitems hothers hrest hrest' hdelimits hapart heq

end Lists

end Legible

/-- The character of a word does not stop one. -/
theorem not_stops_char {c : Char} (h : isWordChar c = true) (rest : List Symbol) :
    ¬Stops (.char c :: rest) := by
  intro hstops
  obtain ⟨d, heq, hd⟩ := hstops (.char c) rfl
  cases heq
  rw [h] at hd
  cases hd

/-- A run of characters of words ends where what follows stops a word. -/
theorem read_chars {cs ds : List Char} (hcs : ∀ c ∈ cs, isWordChar c = true)
    (hds : ∀ d ∈ ds, isWordChar d = true) {rest rest' : List Symbol} (hrest : Stops rest)
    (hrest' : Stops rest')
    (heq : cs.map Symbol.char ++ rest = ds.map Symbol.char ++ rest') : cs = ds ∧ rest = rest' := by
  induction cs generalizing ds with
  | nil =>
    cases ds with
    | nil => exact ⟨rfl, heq⟩
    | cons d ds =>
      rw [List.map_nil, List.nil_append] at heq
      exact absurd (heq ▸ hrest) (not_stops_char (hds d List.mem_cons_self) _)
  | cons c cs ih =>
    cases ds with
    | nil =>
      rw [List.map_nil, List.nil_append] at heq
      exact absurd (heq ▸ hrest') (not_stops_char (hcs c List.mem_cons_self) _)
    | cons d ds =>
      obtain ⟨hc, hcs⟩ := List.forall_mem_cons.mp hcs
      obtain ⟨hd, hds⟩ := List.forall_mem_cons.mp hds
      obtain ⟨hfirst, hfollowing⟩ := List.cons.inj heq
      obtain ⟨hsame, hend⟩ := ih hcs hds hfollowing
      exact ⟨congrArg₂ List.cons (Symbol.char.inj hfirst) hsame, hend⟩

/-- The characters of a word are those of words. -/
theorem IsWord.chars {word : String} (h : IsWord word) : ∀ c ∈ word.toList, isWordChar c = true :=
  List.all_eq_true.mp h.2

/-- Words are legible. -/
theorem legible_word : Legible IsWord letters where
  unmarked word hword := Unmarked.of_letters fun hmark => by cases hword.chars '?' hmark
  starts word rest hword := by
    cases hchars : word.toList with
    | nil => exact absurd (String.toList_eq_nil_iff.mp hchars) hword.1
    | cons c chars =>
      rw [letters, hchars]
      exact not_stops_char (hword.chars c (hchars ▸ List.mem_cons_self)) _
  read a b rest rest' ha hb hrest hrest' heq :=
    (read_chars ha.chars hb.chars hrest hrest' heq).imp_left String.toList_inj.mp

/-- Names are words. -/
theorem IsIdentifier.isWord {name : String} (h : IsIdentifier name) : IsWord name := by
  refine ⟨h.1, List.all_eq_true.mpr fun c hc => ?_⟩
  rw [isWordChar, List.all_eq_true.mp h.2 c hc]
  rfl

/-- A run of digits is made of characters of words. -/
theorem isWordChar_of_natural? {cs : List Char} {n : Nat} (h : Text.natural? cs = some n) :
    cs ≠ [] ∧ cs.all isWordChar = true := by
  rw [Text.natural?] at h
  split at h
  · rename_i hrun
    refine ⟨hrun.1, List.all_eq_true.mpr fun c hc => ?_⟩
    rw [isWordChar, isNameChar, Char.isAlphanum, List.all_eq_true.mp hrun.2 c hc, Bool.or_true]
    rfl
  · cases h

/-- Numerals are words. -/
theorem IsIntegerLiteral.isWord {text : String} (h : IsIntegerLiteral text) : IsWord text := by
  have hchars : text.toList ≠ [] ∧ text.toList.all isWordChar = true := by
    rw [IsIntegerLiteral, Text.integer?.eq_def] at h
    split at h
    · rename_i cs heq
      cases hdigits : Text.natural? cs with
      | none =>
        rw [hdigits] at h
        cases h
      | some n =>
        rw [heq]
        exact ⟨List.cons_ne_nil _ _, (isWordChar_of_natural? hdigits).2⟩
    · rename_i cs heq
      cases hdigits : Text.natural? cs with
      | none =>
        rw [hdigits] at h
        cases h
      | some n =>
        rw [heq]
        exact ⟨List.cons_ne_nil _ _, (isWordChar_of_natural? hdigits).2⟩
    · cases hdigits : Text.natural? text.toList with
      | none =>
        rw [hdigits] at h
        cases h
      | some n => exact isWordChar_of_natural? hdigits
  exact ⟨fun hempty => hchars.1 (hempty ▸ rfl), hchars.2⟩

/-- Whole numbers are legible in digits. -/
theorem legible_number : Legible (fun _ : Nat => True) fun n => letters (toString n) := by
  have hrun : ∀ n : Nat, Text.natural? (toString n).toList = some n := by
    intro n
    rw [Nat.toString_eq_repr, Nat.toList_repr, Text.natural?_toDigits]
  have hword : ∀ n : Nat, IsWord (toString n) := fun n =>
    ⟨fun hempty => (isWordChar_of_natural? (hrun n)).1 (hempty ▸ rfl),
      (isWordChar_of_natural? (hrun n)).2⟩
  refine ⟨fun n _ => legible_word.unmarked _ (hword n),
    fun n rest _ => legible_word.starts _ rest (hword n),
    fun m n rest rest' _ _ hrest hrest' heq => ?_⟩
  obtain ⟨hsame, hend⟩ := legible_word.read _ _ _ _ (hword m) (hword n) hrest hrest' heq
  have hnumber := hrun m
  rw [hsame, hrun n, Option.some.injEq] at hnumber
  exact ⟨hnumber.symm, hend⟩

/-- Values are legible, as they stand in their places. -/
theorem legible_value : Legible (fun _ => True) fun value => [Symbol.value value] where
  unmarked value _ := List.forall_mem_singleton.mpr Symbol.noConfusion
  starts value rest _ hstops := by
    obtain ⟨c, heq, -⟩ := hstops (.value value) rfl
    cases heq
  read a b rest rest' _ _ _ _ heq := by
    cases heq
    exact ⟨rfl, rfl⟩

/-- A word is read off where a delimiter follows. -/
theorem read_word {word word' text text' : String} (hword : IsWord word) (hword' : IsWord word')
    {rest rest' : List Symbol} (htext : delimits text = true) (htext' : delimits text' = true)
    (heq : letters word ++ (letters text ++ rest) = letters word' ++ (letters text' ++ rest')) :
    word = word' ∧ letters text ++ rest = letters text' ++ rest' :=
  legible_word.read _ _ _ _ hword hword' (stops_letters htext _) (stops_letters htext' _) heq

end WideGraph
