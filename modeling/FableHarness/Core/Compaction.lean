import Mathlib.Algebra.Order.Field.Rat
import Mathlib.Algebra.Order.Field.Basic
import Mathlib.Tactic.NormNum
import Mathlib.Logic.Function.Iterate
import FableHarness.Core.Python

/-!
# History compaction

Once a message history uses too much of the context window, `compact_history`
drops the short messages at its old end, up to the first long one, which it
shortens and stops at.
-/

namespace FableHarness

/-- An entry of a `list[Any]` of messages, of which only `str` is read: an
object of the agent library, or a text. -/
inductive Message (α : Type) where
  | object (value : α)
  | text (value : String)

section Compaction

variable {α : Type} (render : α → String)

/-- `str(message)` -/
def Message.str : Message α → String
  | .object value => render value
  | .text value => value

def Message.length (message : Message α) : Nat :=
  (message.str render).length

def totalChars (messages : List (Message α)) : Nat :=
  (messages.map (Message.length render)).sum

def utilization (chars : Nat) (maxContextTokens : Int)
    (charsPerToken : Nat := 4) : ℚ :=
  if maxContextTokens = 0 then 0 else chars / charsPerToken / maxContextTokens

def estimateUtilization (messages : List (Message α)) (maxContextTokens : Int)
    (charsPerToken : Nat := 4) : ℚ :=
  utilization (totalChars render messages) maxContextTokens charsPerToken

/-- The text that takes the place of a long message. -/
def truncated (text : String) : String :=
  "[compacted: " ++ String.ofList (text.toList.take 200) ++ "... (" ++
    toString text.length ++ " chars truncated)]"

/-- The `while` loop of `compact_history`. -/
def compactLoop (threshold : ℚ) (maxContextTokens : Int) :
    List (Message α) → List (Message α)
  | oldest :: next :: rest =>
      if threshold ≤
          estimateUtilization render (oldest :: next :: rest) maxContextTokens then
        let text := oldest.str render
        if 200 < text.length then
          .text (truncated text) :: next :: rest
        else
          compactLoop threshold maxContextTokens (next :: rest)
      else
        oldest :: next :: rest
  | messages => messages

def compactHistory (messages : List (Message α)) (threshold : ℚ)
    (maxContextTokens : Int) : List (Message α) :=
  if estimateUtilization render messages maxContextTokens < threshold then
    messages
  else
    compactLoop render threshold maxContextTokens messages

end Compaction

/-! ## Lengths -/

section Lengths

variable {α : Type} {render : α → String}

@[simp]
theorem totalChars_cons (message : Message α) (rest : List (Message α)) :
    totalChars render (message :: rest) =
      message.length render + totalChars render rest := by
  simp [totalChars]

@[simp]
theorem totalChars_append (dropped kept : List (Message α)) :
    totalChars render (dropped ++ kept) =
      totalChars render dropped + totalChars render kept := by
  simp [totalChars]

@[simp]
theorem length_text (text : String) :
    (Message.text text : Message α).length render = text.length :=
  rfl

/-- The wrapper adds 35 characters and the digits of the old length. -/
theorem length_truncated {text : String} (long : 200 < text.length) :
    (truncated text).length = 235 + text.length.repr.length := by
  have kept : (String.ofList (text.toList.take 200)).length = 200 := by
    rw [String.length_ofList, List.length_take, String.length_toList]
    omega
  have opening : "[compacted: ".length = 12 := by decide
  have dots : "... (".length = 5 := by decide
  have closing : " chars truncated)]".length = 18 := by decide
  unfold truncated
  rw [String.length_append, String.length_append, String.length_append,
    String.length_append, kept, opening, dots, closing, Nat.toString_eq_repr]
  omega

theorem three_le_length_repr {count : Nat} (long : 200 < count) :
    3 ≤ count.repr.length := by
  by_contra few
  have two : count.repr.length ≤ 2 := by omega
  have small := (Nat.length_repr_le_iff (by decide)).mp two
  omega

/-- A truncated text is itself long enough to be truncated. -/
theorem le_length_truncated {text : String} (long : 200 < text.length) :
    238 ≤ (truncated text).length := by
  have digits := three_le_length_repr long
  rw [length_truncated long]
  omega

theorem length_truncated_of_lt {text : String} (long : 200 < text.length)
    (below : text.length < 1000) : (truncated text).length = 238 := by
  have atMost : text.length.repr.length ≤ 3 :=
    (Nat.length_repr_le_iff (by decide)).mpr (by omega)
  have digits := three_le_length_repr long
  rw [length_truncated long]
  omega

/-- The digits of a number are far fewer than what it counts. -/
theorem length_repr_add_lt {count : Nat} (large : 1000 ≤ count) :
    235 + count.repr.length < count := by
  have power : ∀ extra : Nat, 239 + extra < 10 ^ (extra + 3) := by
    intro extra
    induction extra with
    | zero => decide
    | succ extra inductionHypothesis =>
        rw [show extra + 1 + 3 = extra + 3 + 1 by omega, pow_succ]
        omega
  have enough : count.repr.length ≤ count - 236 := by
    refine (Nat.length_repr_le_iff (by omega)).mpr ?_
    have bound := power (count - 239)
    rw [show count - 239 + 3 = count - 236 by omega] at bound
    omega
  omega

theorem length_truncated_lt {text : String} (large : 1000 ≤ text.length) :
    (truncated text).length < text.length := by
  rw [length_truncated (by omega)]
  exact length_repr_add_lt large

theorem utilization_le_iff {chars other : Nat} {maxContextTokens : Int}
    (positive : 0 < maxContextTokens) :
    utilization chars maxContextTokens ≤ utilization other maxContextTokens ↔
      chars ≤ other := by
  have window : (0 : ℚ) < maxContextTokens := Int.cast_pos.mpr positive
  unfold utilization
  rw [if_neg (by omega), if_neg (by omega), div_le_div_iff_of_pos_right window,
    div_le_div_iff_of_pos_right (by norm_num), Nat.cast_le]

end Lengths

/-! ## One call -/

section Call

variable {α : Type} {render : α → String} {threshold : ℚ}
  {maxContextTokens : Int}

/-- The messages before index `i` are short, and each was dropped from a history
at or above the threshold. -/
def Droppable (render : α → String) (threshold : ℚ) (maxContextTokens : Int)
    (messages : List (Message α)) (i : Nat) : Prop :=
  ∀ j message, j < i → messages[j]? = some message →
    message.length render ≤ 200 ∧
      threshold ≤ estimateUtilization render (messages.drop j) maxContextTokens

/-- The message at index `i` is the first long one, is not the last, and the
history from it on is still at or above the threshold. -/
structure TruncatesAt (render : α → String) (threshold : ℚ)
    (maxContextTokens : Int) (messages : List (Message α)) (i : Nat)
    (message : Message α) : Prop where
  present : messages[i]? = some message
  long : 200 < message.length render
  short : ∀ j earlier, j < i → messages[j]? = some earlier →
    earlier.length render ≤ 200
  notLast : i + 1 < messages.length
  crowded :
    threshold ≤ estimateUtilization render (messages.drop i) maxContextTokens

theorem droppable_zero (messages : List (Message α)) :
    Droppable render threshold maxContextTokens messages 0 := by
  intro j message before
  omega

theorem Droppable.cons {oldest : Message α} {rest : List (Message α)} {i : Nat}
    (short : oldest.length render ≤ 200)
    (crowded :
      threshold ≤ estimateUtilization render (oldest :: rest) maxContextTokens)
    (droppable : Droppable render threshold maxContextTokens rest i) :
    Droppable render threshold maxContextTokens (oldest :: rest) (i + 1) := by
  intro j message before present
  cases j with
  | zero =>
      cases present
      exact ⟨short, crowded⟩
  | succ j => exact droppable j message (by omega) present

theorem TruncatesAt.cons {oldest message : Message α}
    {rest : List (Message α)} {i : Nat}
    (shortOldest : oldest.length render ≤ 200)
    (truncates :
      TruncatesAt render threshold maxContextTokens rest i message) :
    TruncatesAt render threshold maxContextTokens (oldest :: rest) (i + 1)
      message where
  present := truncates.present
  long := truncates.long
  short := by
    intro j earlier before present
    cases j with
    | zero =>
        cases present
        exact shortOldest
    | succ j => exact truncates.short j earlier (by omega) present
  notLast := by
    have inside := truncates.notLast
    rw [List.length_cons]
    omega
  crowded := truncates.crowded

theorem TruncatesAt.rest_ne_nil {messages : List (Message α)} {i : Nat}
    {message : Message α}
    (truncates :
      TruncatesAt render threshold maxContextTokens messages i message) :
    messages.drop (i + 1) ≠ [] := by
  intro empty
  rw [List.drop_eq_nil_iff] at empty
  have inside := truncates.notLast
  omega

/-- Where the loop stops, and why: the history is below the threshold there, or
only the last message is left, or the message there was truncated. -/
theorem compactLoop_spec (render : α → String) (threshold : ℚ)
    (maxContextTokens : Int) {messages : List (Message α)}
    (nonempty : messages ≠ []) :
    ∃ i < messages.length,
      Droppable render threshold maxContextTokens messages i ∧
        ((compactLoop render threshold maxContextTokens messages =
              messages.drop i ∧
            (estimateUtilization render (messages.drop i) maxContextTokens <
                threshold ∨
              i + 1 = messages.length)) ∨
          ∃ message,
            TruncatesAt render threshold maxContextTokens messages i message ∧
              compactLoop render threshold maxContextTokens messages =
                .text (truncated (message.str render)) ::
                  messages.drop (i + 1)) := by
  induction messages with
  | nil => exact absurd rfl nonempty
  | cons oldest kept inductionHypothesis =>
      cases kept with
      | nil =>
          refine ⟨0, by simp, droppable_zero _, Or.inl ⟨rfl, Or.inr rfl⟩⟩
      | cons next rest =>
          by_cases crowded :
              threshold ≤
                estimateUtilization render (oldest :: next :: rest)
                  maxContextTokens
          · by_cases long : 200 < oldest.length render
            · refine ⟨0, by simp, droppable_zero _, Or.inr ⟨oldest, ?_, ?_⟩⟩
              · exact
                  { present := rfl
                    long := long
                    short := by
                      intro j earlier before
                      omega
                    notLast := by simp
                    crowded := crowded }
              · rw [compactLoop, if_pos crowded]
                exact if_pos long
            · have pops :
                  compactLoop render threshold maxContextTokens
                      (oldest :: next :: rest) =
                    compactLoop render threshold maxContextTokens
                      (next :: rest) := by
                rw [compactLoop, if_pos crowded]
                exact if_neg long
              obtain ⟨i, inside, droppable, stops⟩ :=
                inductionHypothesis (List.cons_ne_nil next rest)
              have short : oldest.length render ≤ 200 := by omega
              refine
                ⟨i + 1, by simpa using inside, droppable.cons short crowded, ?_⟩
              rw [pops]
              rcases stops with ⟨kept, reason⟩ | ⟨message, truncates, kept⟩
              · exact Or.inl ⟨kept, reason.imp_right (congrArg (· + 1))⟩
              · exact Or.inr ⟨message, truncates.cons short, kept⟩
          · refine
              ⟨0, by simp, droppable_zero _, Or.inl ⟨?_, Or.inl ?_⟩⟩
            · rw [compactLoop, if_neg crowded]
              rfl
            · exact not_le.mp crowded

/-- A history below the threshold already is where the loop would stop. -/
theorem compactHistory_spec (render : α → String) (threshold : ℚ)
    (maxContextTokens : Int) {messages : List (Message α)}
    (nonempty : messages ≠ []) :
    ∃ i < messages.length,
      Droppable render threshold maxContextTokens messages i ∧
        ((compactHistory render messages threshold maxContextTokens =
              messages.drop i ∧
            (estimateUtilization render (messages.drop i) maxContextTokens <
                threshold ∨
              i + 1 = messages.length)) ∨
          ∃ message,
            TruncatesAt render threshold maxContextTokens messages i message ∧
              compactHistory render messages threshold maxContextTokens =
                .text (truncated (message.str render)) ::
                  messages.drop (i + 1)) := by
  unfold compactHistory
  by_cases below :
      estimateUtilization render messages maxContextTokens < threshold
  · rw [if_pos below]
    exact
      ⟨0, List.length_pos_of_ne_nil nonempty, droppable_zero messages,
        Or.inl ⟨rfl, Or.inl below⟩⟩
  · rw [if_neg below]
    exact compactLoop_spec render threshold maxContextTokens nonempty

/-- `result` is `messages` from index `i` on, its head perhaps truncated, and
nothing was dropped or truncated without need. -/
structure CompactedFrom (render : α → String) (threshold : ℚ)
    (maxContextTokens : Int) (messages result : List (Message α)) (i : Nat) :
    Prop where
  inside : i < messages.length
  length : result.length = (messages.drop i).length
  recent : result.tail = messages.drop (i + 1)
  oldest :
    result.head? = messages[i]? ∨
      ∃ message,
        TruncatesAt render threshold maxContextTokens messages i message ∧
          result.head? = some (.text (truncated (message.str render)))
  last : result.getLast? = messages.getLast?
  dropped : Droppable render threshold maxContextTokens messages i
  settled :
    estimateUtilization render result maxContextTokens < threshold ∨
      (∃ message,
        TruncatesAt render threshold maxContextTokens messages i message ∧
          result.head? = some (.text (truncated (message.str render)))) ∨
      ∃ message, messages.getLast? = some message ∧ result = [message]

theorem getLast?_drop_of_lt {messages : List (Message α)} {i : Nat}
    (inside : i < messages.length) :
    (messages.drop i).getLast? = messages.getLast? := by
  rw [List.getLast?_drop, if_neg (by omega)]

theorem drop_of_last {messages : List (Message α)} {i : Nat}
    (only : i + 1 = messages.length) :
    ∃ message,
      messages.getLast? = some message ∧ messages.drop i = [message] := by
  have inside : i < messages.length := by omega
  refine ⟨messages[i], ?_, ?_⟩
  · rw [List.getLast?_eq_getElem?, List.getElem?_eq_some_iff]
    refine ⟨by omega, ?_⟩
    simp [← only]
  · rw [List.drop_eq_getElem_cons inside, List.drop_eq_nil_of_le (by omega)]

theorem compactedFrom_drop {messages : List (Message α)} {i : Nat}
    (inside : i < messages.length)
    (droppable : Droppable render threshold maxContextTokens messages i)
    (stops :
      estimateUtilization render (messages.drop i) maxContextTokens <
          threshold ∨
        i + 1 = messages.length) :
    CompactedFrom render threshold maxContextTokens messages (messages.drop i)
      i where
  inside := inside
  length := rfl
  recent := List.tail_drop
  oldest := Or.inl (List.head?_drop)
  last := getLast?_drop_of_lt inside
  dropped := droppable
  settled := stops.imp_right fun only => Or.inr (drop_of_last only)

theorem compactedFrom_truncated {messages : List (Message α)} {i : Nat}
    {message : Message α}
    (droppable : Droppable render threshold maxContextTokens messages i)
    (truncates :
      TruncatesAt render threshold maxContextTokens messages i message) :
    CompactedFrom render threshold maxContextTokens messages
      (.text (truncated (message.str render)) :: messages.drop (i + 1)) i where
  inside := by
    have inside := truncates.notLast
    omega
  length := by
    have inside := truncates.notLast
    rw [List.length_cons, List.length_drop, List.length_drop]
    omega
  recent := rfl
  oldest := Or.inr ⟨message, truncates, rfl⟩
  last := by
    rw [← getLast?_drop_of_lt truncates.notLast,
      List.getLast?_cons_of_ne_nil truncates.rest_ne_nil]
  dropped := droppable
  settled := Or.inr (Or.inl ⟨message, truncates, rfl⟩)

/-- Compaction only touches the oldest end, and only as far as needed. -/
theorem compactHistory_from_oldest (render : α → String) (threshold : ℚ)
    (maxContextTokens : Int) (messages : List (Message α))
    (nonempty : messages ≠ []) :
    (∃ i,
      CompactedFrom render threshold maxContextTokens messages
        (compactHistory render messages threshold maxContextTokens) i) ∧
      (estimateUtilization render messages maxContextTokens < threshold →
        compactHistory render messages threshold maxContextTokens =
          messages) := by
  obtain ⟨i, inside, droppable, stops⟩ :=
    compactHistory_spec render threshold maxContextTokens nonempty
  refine ⟨⟨i, ?_⟩, fun below => if_pos below⟩
  rcases stops with ⟨kept, reason⟩ | ⟨message, truncates, kept⟩
  · rw [kept]
    exact compactedFrom_drop inside droppable reason
  · rw [kept]
    exact compactedFrom_truncated droppable truncates

/-- Two short messages over a window of one token: the older one goes. -/
theorem compactHistory_from_oldest_hello :
    (∃ i,
      CompactedFrom id (1 / 2) 1 [.text "hello", .text "world"]
        (compactHistory id [.text "hello", .text "world"] (1 / 2) 1) i) ∧
      (estimateUtilization id [.text "hello", .text "world"] 1 < 1 / 2 →
        compactHistory id [.text "hello", .text "world"] (1 / 2) 1 =
          [.text "hello", .text "world"]) :=
  compactHistory_from_oldest id (1 / 2) 1 [.text "hello", .text "world"]
    (List.cons_ne_nil _ _)

end Call

/-! ## The size of the result -/

section Size

variable {α : Type} {render : α → String} {threshold : ℚ}
  {maxContextTokens : Int}

theorem totalChars_take_add_drop (render : α → String)
    (messages : List (Message α)) (i : Nat) :
    totalChars render (messages.take i) + totalChars render (messages.drop i) =
      totalChars render messages := by
  rw [← totalChars_append, List.take_append_drop]

theorem estimateUtilization_drop_le (positive : 0 < maxContextTokens)
    (messages : List (Message α)) (i : Nat) :
    estimateUtilization render (messages.drop i) maxContextTokens ≤
      estimateUtilization render messages maxContextTokens := by
  refine (utilization_le_iff positive).mpr ?_
  have split := totalChars_take_add_drop render messages i
  omega

/-- Where a message meets the conditions, the loop truncates it. -/
theorem TruncatesAt.compactLoop_eq {messages : List (Message α)} {i : Nat}
    {message : Message α} (positive : 0 < maxContextTokens)
    (truncates :
      TruncatesAt render threshold maxContextTokens messages i message) :
    compactLoop render threshold maxContextTokens messages =
      .text (truncated (message.str render)) :: messages.drop (i + 1) := by
  have crowded :
      threshold ≤ estimateUtilization render messages maxContextTokens :=
    truncates.crowded.trans (estimateUtilization_drop_le positive messages i)
  have notLast := truncates.notLast
  induction messages generalizing i with
  | nil => exact absurd notLast (by simp)
  | cons oldest kept inductionHypothesis =>
      cases kept with
      | nil =>
          rw [List.length_singleton] at notLast
          omega
      | cons next rest =>
          rw [compactLoop, if_pos crowded]
          cases i with
          | zero =>
              have same : oldest = message :=
                Option.some.inj truncates.present
              rw [same]
              exact if_pos truncates.long
          | succ i =>
              have short : oldest.length render ≤ 200 :=
                truncates.short 0 oldest (by omega) rfl
              have later :
                  TruncatesAt render threshold maxContextTokens (next :: rest)
                    i message :=
                { present := truncates.present
                  long := truncates.long
                  short := fun j earlier before present =>
                    truncates.short (j + 1) earlier (by omega) present
                  notLast := by
                    rw [List.length_cons] at notLast
                    omega
                  crowded := truncates.crowded }
              refine (if_neg (not_lt.mpr short)).trans ?_
              exact
                inductionHypothesis later
                  (later.crowded.trans
                    (estimateUtilization_drop_le positive _ i))
                  later.notLast

theorem TruncatesAt.compactHistory_eq {messages : List (Message α)} {i : Nat}
    {message : Message α} (positive : 0 < maxContextTokens)
    (truncates :
      TruncatesAt render threshold maxContextTokens messages i message) :
    compactHistory render messages threshold maxContextTokens =
      .text (truncated (message.str render)) :: messages.drop (i + 1) := by
  have crowded :=
    truncates.crowded.trans (estimateUtilization_drop_le positive messages i)
  unfold compactHistory
  rw [if_neg (not_lt.mpr crowded)]
  exact truncates.compactLoop_eq positive

theorem totalChars_take_succ {messages : List (Message α)} {i : Nat}
    {message : Message α} (present : messages[i]? = some message) :
    totalChars render (messages.take (i + 1)) =
      totalChars render (messages.take i) + message.length render := by
  rw [List.take_add_one, present, totalChars_append]
  simp [totalChars]

/-- A truncated head outgrows what it replaces only below 238 characters. -/
theorem length_truncated_le_iff {message : Message α}
    (long : 200 < message.length render) (extra : Nat) :
    (truncated (message.str render)).length ≤ extra + message.length render ↔
      238 ≤ extra + message.length render := by
  have atLeast := le_length_truncated long
  by_cases large : message.length render < 1000
  · have exactly := length_truncated_of_lt long large
    omega
  · have shrinks :
        (truncated (message.str render)).length < message.length render :=
      length_truncated_lt (not_lt.mp large)
    omega

/-- One call makes a history bigger exactly if it truncates a message that,
with the messages dropped before it, has fewer than 238 characters. -/
theorem estimateUtilization_compactHistory_le_iff (render : α → String)
    (threshold : ℚ) (maxContextTokens : Int) (messages : List (Message α))
    (positive : 0 < maxContextTokens) :
    estimateUtilization render
          (compactHistory render messages threshold maxContextTokens)
          maxContextTokens ≤
        estimateUtilization render messages maxContextTokens ↔
      ∀ i message,
        TruncatesAt render threshold maxContextTokens messages i message →
          238 ≤ totalChars render (messages.take (i + 1)) := by
  constructor
  · intro smaller i message truncates
    rw [truncates.compactHistory_eq positive] at smaller
    have chars := (utilization_le_iff positive).mp smaller
    have split := totalChars_take_add_drop render messages (i + 1)
    rw [totalChars_cons, length_text, ← split] at chars
    rw [totalChars_take_succ truncates.present] at chars ⊢
    refine (length_truncated_le_iff truncates.long _).mp ?_
    omega
  · intro enough
    by_cases empty : messages = []
    · subst empty
      have same : compactHistory render [] threshold maxContextTokens = [] :=
        ite_self _
      rw [same]
    · obtain ⟨i, inside, droppable, stops⟩ :=
        compactHistory_spec render threshold maxContextTokens empty
      rcases stops with ⟨kept, _⟩ | ⟨message, truncates, kept⟩
      · rw [kept]
        exact estimateUtilization_drop_le positive messages i
      · have together := enough i message truncates
        have split := totalChars_take_add_drop render messages (i + 1)
        rw [kept]
        refine (utilization_le_iff positive).mpr ?_
        rw [totalChars_cons, length_text, ← split]
        rw [totalChars_take_succ truncates.present] at together ⊢
        have shrinks :=
          (length_truncated_le_iff truncates.long _).mpr together
        omega

/-- A message of `count` letters. -/
def letters (count : Nat) : Message String :=
  .text (String.ofList (List.replicate count 'a'))

@[simp]
theorem length_letters (count : Nat) : (letters count).length id = count := by
  simp [letters, Message.length, Message.str]

/-- A history whose first message is just over the cut-off. -/
def justOverCutOff : List (Message String) :=
  [letters 201, letters 1]

theorem totalChars_justOverCutOff : totalChars id justOverCutOff = 202 := by
  rw [justOverCutOff, totalChars_cons, totalChars_cons, length_letters,
    length_letters]
  rfl

theorem truncatesAt_justOverCutOff :
    TruncatesAt id (1 / 2) 100 justOverCutOff 0 (letters 201) where
  present := rfl
  long := by
    rw [length_letters]
    decide
  short := by
    intro j earlier before
    omega
  notLast := by decide
  crowded := by
    rw [List.drop_zero]
    unfold estimateUtilization
    rw [totalChars_justOverCutOff]
    norm_num [utilization]

/-- A history whose first message is far over the cut-off. -/
def farOverCutOff : List (Message String) :=
  [letters 500, letters 1]

/-- Truncating 500 characters does not add any. -/
theorem farOverCutOff_does_not_grow :
    estimateUtilization id (compactHistory id farOverCutOff (1 / 2) 200) 200 ≤
      estimateUtilization id farOverCutOff 200 := by
  apply
    (estimateUtilization_compactHistory_le_iff id (1 / 2) 200 farOverCutOff
      (by decide)).mpr
  intro i message _
  rw [farOverCutOff, List.take_succ_cons, totalChars_cons, length_letters]
  omega

/-- Truncating 201 characters leaves 238. -/
theorem compactHistory_grows :
    ¬ ∀ (messages : List (Message String)) (threshold : ℚ)
        (maxContextTokens : Int),
      0 < maxContextTokens →
        estimateUtilization id
            (compactHistory id messages threshold maxContextTokens)
            maxContextTokens ≤
          estimateUtilization id messages maxContextTokens := by
  intro smaller
  have chars :=
    (utilization_le_iff (by decide)).mp
      (smaller justOverCutOff (1 / 2) 100 (by decide))
  have grown :=
    le_length_truncated truncatesAt_justOverCutOff.long
  rw [truncatesAt_justOverCutOff.compactHistory_eq (by decide),
    totalChars_cons, totalChars_justOverCutOff, length_text] at chars
  omega

end Size

/-! ## Repeated calls -/

section Iteration

variable {α : Type} {render : α → String} {threshold : ℚ}
  {maxContextTokens : Int}

/-- Below the threshold, or a single message. -/
def Settled (render : α → String) (threshold : ℚ) (maxContextTokens : Int)
    (messages : List (Message α)) : Prop :=
  estimateUtilization render messages maxContextTokens < threshold ∨
    messages.length = 1

/-- `calls` calls, each on the result of the one before. -/
def compactTimes (render : α → String) (threshold : ℚ) (maxContextTokens : Int)
    (calls : Nat) (messages : List (Message α)) : List (Message α) :=
  (fun history => compactHistory render history threshold maxContextTokens)^[calls]
    messages

theorem compactTimes_succ (calls : Nat) (messages : List (Message α)) :
    compactTimes render threshold maxContextTokens (calls + 1) messages =
      compactTimes render threshold maxContextTokens calls
        (compactHistory render messages threshold maxContextTokens) :=
  Function.iterate_succ_apply _ calls messages

/-- A long head over a crowded rest is where the loop truncates at once. -/
theorem truncatesAt_head {head : Message α} {rest : List (Message α)}
    (long : 200 < head.length render) (more : rest ≠ [])
    (crowded :
      threshold ≤ estimateUtilization render (head :: rest) maxContextTokens) :
    TruncatesAt render threshold maxContextTokens (head :: rest) 0 head where
  present := rfl
  long := long
  short := by
    intro j earlier before
    omega
  notLast := by
    have nonempty := List.length_pos_of_ne_nil more
    rw [List.length_cons]
    omega
  crowded := crowded

/-- If 238 characters in front of the rest fit, a long head gets there: each
call shortens it, down to 238 characters, until the history fits. -/
theorem exists_settled_of_fits {rest : List (Message α)}
    (positive : 0 < maxContextTokens) (more : rest ≠ [])
    (fits :
      utilization (238 + totalChars render rest) maxContextTokens < threshold)
    (bound : Nat) :
    ∀ head : Message α, head.length render ≤ bound →
      200 < head.length render →
        ∃ calls,
          Settled render threshold maxContextTokens
            (compactTimes render threshold maxContextTokens calls
              (head :: rest)) := by
  induction bound with
  | zero =>
      intro head atMost long
      omega
  | succ bound inductionHypothesis =>
      intro head atMost long
      by_cases below :
          estimateUtilization render (head :: rest) maxContextTokens < threshold
      · exact ⟨0, Or.inl below⟩
      · have next :=
          (truncatesAt_head long more (not_lt.mp below)).compactHistory_eq
            positive
        rw [List.drop_one, List.tail_cons] at next
        by_cases large : head.length render < 1000
        · refine ⟨1, Or.inl ?_⟩
          rw [compactTimes_succ, next]
          have exactly :
              (truncated (head.str render)).length = 238 :=
            length_truncated_of_lt long large
          show
            utilization
                (totalChars render
                  (.text (truncated (head.str render)) :: rest))
                maxContextTokens < threshold
          rw [totalChars_cons, length_text, exactly]
          exact fits
        · have shrinks :
              (truncated (head.str render)).length < head.length render :=
            length_truncated_lt (not_lt.mp large)
          have stillLong :
              238 ≤ (truncated (head.str render)).length :=
            le_length_truncated long
          obtain ⟨calls, settled⟩ :=
            inductionHypothesis (.text (truncated (head.str render)))
              (by rw [length_text]; omega) (by rw [length_text]; omega)
          exact ⟨calls + 1, by rwa [compactTimes_succ, next]⟩

/-- A head of 238 characters or more, over a rest that does not fit behind 238
characters, is rewritten for ever. -/
theorem not_settled_of_stuck {rest : List (Message α)}
    (positive : 0 < maxContextTokens) (more : rest ≠ [])
    (stuck :
      threshold ≤ utilization (238 + totalChars render rest) maxContextTokens)
    (calls : Nat) (head : Message α) (long : 238 ≤ head.length render) :
    ¬ Settled render threshold maxContextTokens
        (compactTimes render threshold maxContextTokens calls (head :: rest)) := by
  have crowded :
      threshold ≤ estimateUtilization render (head :: rest) maxContextTokens := by
    refine stuck.trans ((utilization_le_iff positive).mpr ?_)
    rw [totalChars_cons]
    omega
  induction calls generalizing head with
  | zero =>
      rintro (below | single)
      · exact absurd crowded (not_le.mpr below)
      · have nonempty := List.length_pos_of_ne_nil more
        change (head :: rest).length = 1 at single
        rw [List.length_cons] at single
        omega
  | succ calls inductionHypothesis =>
      have next :=
        (truncatesAt_head (by omega) more crowded).compactHistory_eq positive
      rw [List.drop_one, List.tail_cons] at next
      rw [compactTimes_succ, next]
      have stillLong : 238 ≤ (truncated (head.str render)).length :=
        le_length_truncated (by show 200 < head.length render; omega)
      refine inductionHypothesis _ stillLong ?_
      refine stuck.trans ((utilization_le_iff positive).mpr ?_)
      rw [totalChars_cons, length_text]
      omega

/-- Repeated compaction settles exactly if, wherever the first call truncates a
message, 238 characters fit in front of the messages behind it. -/
theorem exists_settled_iff (render : α → String) (threshold : ℚ)
    (maxContextTokens : Int) (messages : List (Message α))
    (thresholdPositive : 0 < threshold) (positive : 0 < maxContextTokens) :
    (∃ calls,
        Settled render threshold maxContextTokens
          (compactTimes render threshold maxContextTokens calls messages)) ↔
      ∀ i message,
        TruncatesAt render threshold maxContextTokens messages i message →
          utilization (238 + totalChars render (messages.drop (i + 1)))
            maxContextTokens < threshold := by
  constructor
  · rintro ⟨calls, settled⟩ i message truncates
    by_contra overfull
    have stuck := not_lt.mp overfull
    cases calls with
    | zero =>
        rcases settled with below | single
        · exact
            absurd
              (truncates.crowded.trans
                (estimateUtilization_drop_le positive messages i))
              (not_le.mpr below)
        · change messages.length = 1 at single
          have inside := truncates.notLast
          omega
    | succ calls =>
        rw [compactTimes_succ, truncates.compactHistory_eq positive] at settled
        exact
          not_settled_of_stuck positive truncates.rest_ne_nil stuck calls
            (.text (truncated (message.str render)))
            (le_length_truncated truncates.long) settled
  · intro fits
    by_cases empty : messages = []
    · subst empty
      refine ⟨0, Or.inl ?_⟩
      have nothing : estimateUtilization render [] maxContextTokens = 0 := by
        simp [estimateUtilization, utilization, totalChars]
      show estimateUtilization render [] maxContextTokens < threshold
      rwa [nothing]
    · obtain ⟨i, inside, _, stops⟩ :=
        compactHistory_spec render threshold maxContextTokens empty
      rcases stops with ⟨kept, reason⟩ | ⟨message, truncates, kept⟩
      · refine ⟨1, ?_⟩
        rw [compactTimes_succ, kept]
        refine reason.imp_right fun only => ?_
        show (messages.drop i).length = 1
        rw [List.length_drop]
        omega
      · have stillLong :
            238 ≤ (truncated (message.str render)).length :=
          le_length_truncated truncates.long
        obtain ⟨calls, settled⟩ :=
          exists_settled_of_fits positive truncates.rest_ne_nil
            (fits i message truncates) _
            (.text (truncated (message.str render))) le_rfl
            (by rw [length_text]; omega)
        refine ⟨calls + 1, ?_⟩
        rwa [compactTimes_succ, kept]

/-- A window of 200 tokens has room for 238 characters and one more. -/
theorem farOverCutOff_settles :
    ∃ calls,
      Settled id (1 / 2) 200
        (compactTimes id (1 / 2) 200 calls farOverCutOff) := by
  apply
    (exists_settled_iff id (1 / 2) 200 farOverCutOff (by norm_num)
      (by decide)).mpr
  intro i message truncates
  have first : i = 0 := by
    have inside := truncates.notLast
    simp only [farOverCutOff, List.length_cons, List.length_nil] at inside
    omega
  subst first
  have behind : totalChars id (farOverCutOff.drop 1) = 1 := by
    rw [farOverCutOff, List.drop_one, List.tail_cons, totalChars_cons,
      length_letters]
    rfl
  rw [Nat.zero_add, behind]
  norm_num [utilization]

/-- Two long messages never settle: the first stays at 238 characters and is
never dropped. -/
theorem exists_never_settled :
    ¬ ∀ (messages : List (Message String)) (threshold : ℚ)
        (maxContextTokens : Int),
      0 < threshold → 0 < maxContextTokens →
        ∃ calls,
          Settled id threshold maxContextTokens
            (compactTimes id threshold maxContextTokens calls messages) := by
  intro settles
  obtain ⟨calls, settled⟩ :=
    settles [letters 400, letters 400] (1 / 2) 100 (by norm_num) (by decide)
  have behind : totalChars id [letters 400] = 400 := by
    rw [totalChars_cons, length_letters]
    rfl
  refine
    not_settled_of_stuck (by decide) (List.cons_ne_nil (letters 400) []) ?_
      calls (letters 400) ?_ settled
  · rw [behind]
    norm_num [utilization]
  · rw [length_letters]
    decide

end Iteration

end FableHarness
