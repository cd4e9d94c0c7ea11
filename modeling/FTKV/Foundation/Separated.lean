import Mathlib.Data.List.Forall2

/-!
# Separated lists

A text lists values when it is made of items, one for each value, with a separator
between them.  One separator may follow the last item.

Items are given by a relation.  Where no item contains the separator, the first
separator of a text ends its first item.
-/

namespace FTKV
namespace Foundation

variable {alpha beta : Type} {separator : alpha} {item : List alpha -> beta -> Prop}
  {text word rest : List alpha} {values : List beta}

/-- The text lists the values, from the front. -/
@[mk_iff separated_cases]
inductive Separated (separator : alpha) (item : List alpha -> beta -> Prop) :
    List alpha -> List beta -> Prop where
  | done : Separated separator item [] []
  | last {word : List alpha} {value : beta} (hitem : item word value) :
      Separated separator item word [value]
  | more {word rest : List alpha} {value : beta} {values : List beta}
      (hitem : item word value) (hrest : Separated separator item rest values) :
      Separated separator item (word ++ separator :: rest) (value :: values)

theorem eq_of_append_separator {word' rest' : List alpha} (hword : separator ∉ word)
    (hword' : separator ∉ word')
    (htext : word ++ separator :: rest = word' ++ separator :: rest') :
    word = word' ∧ rest = rest' := by
  induction word generalizing word' with
  | nil =>
      cases word' with
      | nil =>
          injection htext with _ hrest
          exact ⟨rfl, hrest⟩
      | cons first more =>
          injection htext with hfirst _
          exact absurd (hfirst ▸ List.mem_cons_self) hword'
  | cons first more ih =>
      cases word' with
      | nil =>
          injection htext with hfirst _
          exact absurd (hfirst ▸ List.mem_cons_self) hword
      | cons first' more' =>
          injection htext with hfirst hmore
          have hsplit := ih (fun hmem => hword (List.mem_cons_of_mem _ hmem))
            (fun hmem => hword' (List.mem_cons_of_mem _ hmem)) hmore
          rw [hfirst, hsplit.left]
          exact ⟨rfl, hsplit.right⟩

/-!
# Reading from the front
-/

theorem separated_nil (hitem : forall value, ¬ item [] value) :
    Separated separator item [] values <-> values = [] := by
  rw [separated_cases]
  constructor
  · rintro (⟨-, hvalues⟩ | ⟨value, hvalue, -⟩ | ⟨word, rest, -, -, -, -, htext, -⟩)
    · exact hvalues
    · exact absurd hvalue (hitem value)
    · exact absurd htext.symm (List.append_ne_nil_of_right_ne_nil word nofun)
  · intro hvalues
    exact Or.inl ⟨rfl, hvalues⟩

theorem separated_of_notMem (hnonempty : text ≠ []) (htext : separator ∉ text) :
    Separated separator item text values <->
      exists value, item text value ∧ values = [value] := by
  rw [separated_cases]
  constructor
  · rintro (⟨hnil, -⟩ | hlast | ⟨word, rest, -, -, -, -, hsplit, -⟩)
    · exact absurd hnil hnonempty
    · exact hlast
    · rw [hsplit] at htext
      exact absurd (List.mem_append_right word List.mem_cons_self) htext
  · intro hlast
    exact Or.inr (Or.inl hlast)

theorem separated_append (hitem : forall word value, item word value -> separator ∉ word)
    (hword : separator ∉ word) :
    Separated separator item (word ++ separator :: rest) values <->
      exists value more, item word value ∧ Separated separator item rest more ∧
        values = value :: more := by
  rw [separated_cases]
  constructor
  · rintro (⟨hnil, -⟩ | ⟨value, hvalue, -⟩ |
      ⟨word', rest', value, more, hvalue, hmore, hsplit, hvalues⟩)
    · exact absurd hnil (List.append_ne_nil_of_right_ne_nil word nofun)
    · exact absurd (List.mem_append_right word List.mem_cons_self) (hitem _ value hvalue)
    · rcases eq_of_append_separator hword (hitem word' value hvalue) hsplit with ⟨rfl, rfl⟩
      exact ⟨value, more, hvalue, hmore, hvalues⟩
  · rintro ⟨value, more, hvalue, hmore, hvalues⟩
    exact Or.inr (Or.inr ⟨word, rest, value, more, hvalue, hmore, rfl, hvalues⟩)

theorem exists_item_of_mem (h : Separated separator item text values)
    (hvalue : value ∈ values) : exists word, item word value := by
  induction h with
  | done => cases hvalue
  | @last word first hitem =>
      rw [List.mem_singleton] at hvalue
      rw [hvalue]
      exact ⟨word, hitem⟩
  | @more word rest first more hitem _ ih =>
      rcases List.mem_cons.mp hvalue with hfirst | hmore
      · rw [hfirst]
        exact ⟨word, hitem⟩
      · exact ih hmore

/-!
# As a list of items
-/

/-- The text is a non-empty list of items, and a separator may follow the last one. -/
def Lists (separator : alpha) (item : List alpha -> beta -> Prop) (text : List alpha)
    (values : List beta) : Prop :=
  values ≠ [] ∧ exists words ending, List.Forall₂ item words values ∧
    (ending = [] ∨ ending = [separator]) ∧
    text = [separator].intercalate words ++ ending

theorem lists_of_separated (h : Separated separator item text values)
    (hvalues : values ≠ []) : Lists separator item text values := by
  refine ⟨hvalues, ?_⟩
  induction h with
  | done => exact absurd rfl hvalues
  | @last word value hitem =>
      refine ⟨[word], [], .cons hitem .nil, Or.inl rfl, ?_⟩
      rw [List.intercalate_singleton, List.append_nil]
  | @more word rest value values hitem hrest ih =>
      cases hrest with
      | done =>
          refine ⟨[word], [separator], .cons hitem .nil, Or.inr rfl, ?_⟩
          rw [List.intercalate_singleton]
      | last | more =>
          rcases ih nofun with ⟨words, ending, hwords, hending, htext⟩
          refine ⟨word :: words, ending, .cons hitem hwords, hending, ?_⟩
          cases hwords with
          | cons =>
              rw [List.intercalate_cons_cons, htext, List.append_assoc, List.append_assoc]
              rfl

theorem separated_of_lists (h : Lists separator item text values) :
    Separated separator item text values := by
  rcases h with ⟨hvalues, words, ending, hwords, hending, rfl⟩
  induction hwords with
  | nil => exact absurd rfl hvalues
  | @cons word value words values hitem hwords ih =>
      cases hwords with
      | nil =>
          rw [List.intercalate_singleton]
          rcases hending with rfl | rfl
          · rw [List.append_nil]
            exact .last hitem
          · exact .more hitem .done
      | cons =>
          rw [List.intercalate_cons_cons, List.append_assoc, List.append_assoc]
          exact .more hitem (ih nofun)

end Foundation
end FTKV
