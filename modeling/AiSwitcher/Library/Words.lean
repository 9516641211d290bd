/-
This file develops texts of words, over any alphabet with a notion of space: cutting a text
into its words, and joining words so that cutting gives them back.
-/

import Mathlib.Data.List.Basic

namespace Words

variable {Symbol : Type} (isSpace : Symbol → Bool)

/-- A word that has been read, unless there is none. -/
def finished (word : List Symbol) : List (List Symbol) :=
  if word.isEmpty then [] else [word]

/-- The words of a text that goes on from `word`. -/
def wordsFrom (word : List Symbol) : List Symbol → List (List Symbol)
  | [] => finished word
  | symbol :: rest =>
      if isSpace symbol then finished word ++ wordsFrom [] rest
      else wordsFrom (word ++ [symbol]) rest

def words (text : List Symbol) : List (List Symbol) := wordsFrom isSpace [] text

def IsWord (word : List Symbol) : Prop := word ≠ [] ∧ ∀ symbol ∈ word, isSpace symbol = false

variable {isSpace}

theorem eq_of_mem_finished {word other : List Symbol} (member : other ∈ finished word) :
    other ≠ [] ∧ other = word := by
  rw [finished] at member
  split at member
  · cases member
  · next nonempty =>
    rw [List.mem_singleton] at member
    exact ⟨fun empty => nonempty (by rw [← member, empty]; rfl), member⟩

theorem finished_of_isWord {word : List Symbol} (isWord : IsWord isSpace word) :
    finished word = [word] := by
  rw [finished, if_neg (by rw [List.isEmpty_iff]; exact isWord.1)]

theorem isWord_of_mem_wordsFrom {text other : List Symbol} : ∀ {word : List Symbol},
    (∀ symbol ∈ word, isSpace symbol = false) → other ∈ wordsFrom isSpace word text →
    IsWord isSpace other := by
  induction text with
  | nil =>
    intro word plain member
    obtain ⟨nonempty, rfl⟩ := eq_of_mem_finished member
    exact ⟨nonempty, plain⟩
  | cons symbol rest inductionHypothesis =>
    intro word plain member
    rw [wordsFrom] at member
    split at member
    · rcases List.mem_append.mp member with here | later
      · obtain ⟨nonempty, rfl⟩ := eq_of_mem_finished here
        exact ⟨nonempty, plain⟩
      · exact inductionHypothesis (List.forall_mem_nil _) later
    · next notSpace =>
      refine inductionHypothesis (fun other among => ?_) member
      rcases List.mem_append.mp among with before | last
      · exact plain other before
      · rw [List.mem_singleton.mp last]
        exact Bool.eq_false_iff.mpr notSpace

theorem isWord_of_mem_words {text word : List Symbol} (member : word ∈ words isSpace text) :
    IsWord isSpace word :=
  isWord_of_mem_wordsFrom (List.forall_mem_nil _) member

theorem mem_of_mem_wordsFrom {text other : List Symbol} {symbol : Symbol} (among : symbol ∈ other) :
    ∀ {word : List Symbol}, other ∈ wordsFrom isSpace word text → symbol ∈ word ++ text := by
  induction text with
  | nil =>
    intro word member
    obtain ⟨-, rfl⟩ := eq_of_mem_finished member
    exact List.mem_append_left _ among
  | cons next rest inductionHypothesis =>
    intro word member
    rw [wordsFrom] at member
    split at member
    · rcases List.mem_append.mp member with here | later
      · obtain ⟨-, rfl⟩ := eq_of_mem_finished here
        exact List.mem_append_left _ among
      · exact List.mem_append_right _ (List.mem_cons_of_mem _ (inductionHypothesis later))
    · rw [List.append_cons]
      exact inductionHypothesis member

/-- Words consist of symbols of the text. -/
theorem mem_of_mem_words {text word : List Symbol} {symbol : Symbol} (among : symbol ∈ word)
    (member : word ∈ words isSpace text) : symbol ∈ text :=
  mem_of_mem_wordsFrom among member

theorem wordsFrom_append {plain : List Symbol} (noSpace : ∀ symbol ∈ plain, isSpace symbol = false)
    (text : List Symbol) : ∀ word : List Symbol,
    wordsFrom isSpace word (plain ++ text) = wordsFrom isSpace (word ++ plain) text := by
  induction plain with
  | nil =>
    intro word
    rw [List.append_nil, List.nil_append]
  | cons symbol rest inductionHypothesis =>
    intro word
    rw [List.forall_mem_cons] at noSpace
    rw [List.cons_append, wordsFrom, if_neg (by rw [noSpace.1]; exact Bool.false_ne_true),
      inductionHypothesis noSpace.2, ← List.append_cons]

theorem words_append_space {word : List Symbol} (isWord : IsWord isSpace word) {space : Symbol}
    (separates : isSpace space = true) (text : List Symbol) :
    words isSpace (word ++ space :: text) = word :: words isSpace text := by
  rw [words, wordsFrom_append isWord.2, List.nil_append, wordsFrom, if_pos separates,
    finished_of_isWord isWord]
  rfl

theorem words_of_isWord {word : List Symbol} (isWord : IsWord isSpace word) :
    words isSpace word = [word] := by
  have whole := wordsFrom_append isWord.2 [] []
  rw [List.append_nil, List.nil_append] at whole
  rw [words, whole, wordsFrom, finished_of_isWord isWord]

theorem words_replicate_append {space : Symbol} (separates : isSpace space = true) (count : ℕ)
    (text : List Symbol) :
    words isSpace (List.replicate count space ++ text) = words isSpace text := by
  induction count with
  | zero => rfl
  | succ count inductionHypothesis =>
    rw [List.replicate_succ, List.cons_append, words, wordsFrom, if_pos separates]
    exact inductionHypothesis

/-- Words that are joined are the words of the text. -/
theorem words_intercalate {space : Symbol} (separates : isSpace space = true)
    {parts : List (List Symbol)} (all : ∀ part ∈ parts, IsWord isSpace part) :
    words isSpace (List.intercalate [space] parts) = parts := by
  induction parts with
  | nil => rfl
  | cons part rest inductionHypothesis =>
    rw [List.forall_mem_cons] at all
    cases rest with
    | nil => rw [List.intercalate_singleton, words_of_isWord all.1]
    | cons next others =>
      rw [List.intercalate_cons_cons, List.append_assoc, List.singleton_append,
        words_append_space all.1 separates, inductionHypothesis all.2]

theorem mem_intercalate {separator symbol : Symbol} {parts : List (List Symbol)}
    (member : symbol ∈ List.intercalate [separator] parts) :
    symbol = separator ∨ ∃ part ∈ parts, symbol ∈ part := by
  induction parts with
  | nil => cases member
  | cons part rest inductionHypothesis =>
    cases rest with
    | nil =>
      rw [List.intercalate_singleton] at member
      exact .inr ⟨part, List.mem_cons_self, member⟩
    | cons next others =>
      rw [List.intercalate_cons_cons, List.append_assoc, List.singleton_append] at member
      rcases List.mem_append.mp member with here | later
      · exact .inr ⟨part, List.mem_cons_self, here⟩
      rcases List.mem_cons.mp later with same | later
      · exact .inl same
      rcases inductionHypothesis later with same | ⟨other, among, inside⟩
      · exact .inl same
      · exact .inr ⟨other, List.mem_cons_of_mem _ among, inside⟩

/-- Joining goes on with a separator before each further word. -/
theorem intercalate_append_flatMap (separator : Symbol) {parts : List (List Symbol)}
    (nonempty : parts ≠ []) (others : List (List Symbol)) :
    List.intercalate [separator] parts ++ others.flatMap (separator :: ·) =
      List.intercalate [separator] (parts ++ others) := by
  induction parts with
  | nil => exact absurd rfl nonempty
  | cons part rest inductionHypothesis =>
    cases rest with
    | nil =>
      clear inductionHypothesis nonempty
      rw [List.intercalate_singleton, List.singleton_append]
      induction others generalizing part with
      | nil => rw [List.flatMap_nil, List.append_nil, List.intercalate_singleton]
      | cons other others inductionHypothesis =>
        rw [List.flatMap_cons, List.intercalate_cons_cons, ← inductionHypothesis, List.append_assoc]
        rfl
    | cons next rest =>
      rw [List.intercalate_cons_cons, List.append_assoc, inductionHypothesis (List.cons_ne_nil _ _),
        List.cons_append, List.cons_append, List.cons_append, List.intercalate_cons_cons]

end Words
