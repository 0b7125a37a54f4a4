import Mathlib

/-!
# Parser combinators with semantic actions

A shallow embedding of the combinators of Spirit X3 over bytes.  A parser reads
from a list of bytes and may change the variables captured by its semantic
actions; such changes persist when the parser fails, only the position in the
input is restored.  The variables are an explicit state `σ`.

The main result is the law of the counted repetition
`*(eps[have] >> byte[add]) >> eps[done]`, in which the actions count down a
variable: started with the counter at `n`, it consumes exactly `n` bytes or
fails.
-/

namespace X3

/-- A parser: new variables, and the attribute with the unread input unless the
parser failed. -/
def Parser (σ α : Type) : Type :=
  σ → List UInt8 → σ × Option (α × List UInt8)

variable {σ τ α β : Type}

/-- `byte_` -/
def byte : Parser σ UInt8
  | state, [] => (state, none)
  | state, b :: rest => (state, some (b, rest))

/-- `byte_(value)` -/
def byteLit (value : UInt8) : Parser σ Unit
  | state, [] => (state, none)
  | state, b :: rest =>
      if b = value then (state, some ((), rest)) else (state, none)

/-- `eps` -/
def eps : Parser σ Unit :=
  fun state input => (state, some ((), input))

/-- The next `count` bytes, as a binary parser of that size reads them. -/
def bytes (count : ℕ) : Parser σ (List UInt8) :=
  fun state input =>
    if count ≤ input.length then
      (state, some (input.take count, input.drop count))
    else
      (state, none)

protected def pure (value : α) : Parser σ α :=
  fun state input => (state, some (value, input))

/-- A sequence, whose second part may use the attribute of the first. -/
protected def bind (first : Parser σ α) (second : α → Parser σ β) : Parser σ β :=
  fun state input =>
    match first state input with
    | (state', none) => (state', none)
    | (state', some (value, rest)) => second value state' rest

instance : Monad (Parser σ) where
  pure := X3.pure
  bind := X3.bind

/-- `p[action]`: the action changes the variables and decides about the match. -/
def act (parser : Parser σ α) (action : α → σ → σ × Bool) : Parser σ Unit :=
  fun state input =>
    match parser state input with
    | (state', none) => (state', none)
    | (state', some (value, rest)) =>
        match action value state' with
        | (state'', true) => (state'', some ((), rest))
        | (state'', false) => (state'', none)

/-- `first | second` -/
def alt (first second : Parser σ α) : Parser σ α :=
  fun state input =>
    match first state input with
    | (state', none) => second state' input
    | result => result

/-- `parser - excluded` -/
def diff (parser : Parser σ α) (excluded : Parser σ β) : Parser σ α :=
  fun state input =>
    match excluded state input with
    | (state', none) => parser state' input
    | (state', some _) => (state', none)

/-- `repeat(count)[parser]` -/
def repeatN : ℕ → Parser σ α → Parser σ (List α)
  | 0, _ => X3.pure []
  | count + 1, parser =>
      X3.bind parser fun value =>
        X3.bind (repeatN count parser) fun values => X3.pure (value :: values)

/-- A bounded number of attempts of `*parser`. -/
def kleeneAttempts (parser : Parser σ α) : ℕ → Parser σ (List α)
  | 0, state, input => (state, some ([], input))
  | attempts + 1, state, input =>
      match parser state input with
      | (state', none) => (state', some ([], input))
      | (state', some (value, rest)) =>
          match kleeneAttempts parser attempts state' rest with
          | (state'', some (values, rest')) =>
              (state'', some (value :: values, rest'))
          | (state'', none) => (state'', none)

/-- `*parser`.  A parser which consumes something with every match fails at the
latest on the attempt after the last byte. -/
def kleene (parser : Parser σ α) : Parser σ (List α) :=
  fun state input => kleeneAttempts parser (input.length + 1) state input

/-- An invocation of a rule: it works on variables of its own and its attribute
is what they are in the end. -/
def rule (start : τ) (parser : Parser τ α) : Parser σ τ :=
  fun state input =>
    match parser start input with
    | (_, none) => (state, none)
    | (result, some (_, rest)) => (state, some (result, rest))

/-- Value of bytes in big endian order. -/
def bigEndian (bs : List UInt8) : ℕ :=
  bs.foldl (fun value b => 256 * value + b.toNat) 0

/-- Value of bytes in little endian order. -/
def littleEndian (bs : List UInt8) : ℕ :=
  bs.foldr (fun b value => b.toNat + 256 * value) 0

/-- `big_word`, `big_dword` and the like, by their size in bytes. -/
def big (size : ℕ) : Parser σ ℕ := do
  let bs ← bytes size
  X3.pure (bigEndian bs)

/-- `little_word`, `little_dword` and the like. -/
def little (size : ℕ) : Parser σ ℕ := do
  let bs ← bytes size
  X3.pure (littleEndian bs)

/-- `big_word(value)` -/
def bigLit (size value : ℕ) : Parser σ Unit :=
  act (big size) fun found state => (state, found == value)

/-- `little_word(value)` -/
def littleLit (size value : ℕ) : Parser σ Unit :=
  act (little size) fun found state => (state, found == value)

/-! ## Evaluation laws -/

@[simp] theorem byte_nil (state : σ) :
    byte state [] = (state, none) := rfl

@[simp] theorem byte_cons (state : σ) (b : UInt8) (rest : List UInt8) :
    byte state (b :: rest) = (state, some (b, rest)) := rfl

@[simp] theorem byteLit_nil (value : UInt8) (state : σ) :
    byteLit value state [] = (state, none) := rfl

theorem byteLit_cons (value : UInt8) (state : σ) (b : UInt8)
    (rest : List UInt8) :
    byteLit value state (b :: rest) =
      if b = value then (state, some ((), rest)) else (state, none) := rfl

@[simp] theorem pure_eq (value : α) :
    (Pure.pure value : Parser σ α) = X3.pure value := rfl

@[simp] theorem pure_apply (value : α) (state : σ) (input : List UInt8) :
    X3.pure value state input = (state, some (value, input)) := rfl

@[simp] theorem bind_eq (first : Parser σ α) (second : α → Parser σ β) :
    (first >>= second) = X3.bind first second := rfl

theorem bind_of_none {first : Parser σ α} {second : α → Parser σ β}
    {state state' : σ} {input : List UInt8}
    (hfirst : first state input = (state', none)) :
    X3.bind first second state input = (state', none) := by
  simp [X3.bind, hfirst]

theorem bind_of_some {first : Parser σ α} {second : α → Parser σ β}
    {state state' : σ} {input rest : List UInt8} {value : α}
    (hfirst : first state input = (state', some (value, rest))) :
    X3.bind first second state input = second value state' rest := by
  simp [X3.bind, hfirst]

theorem little_of_enough {size : ℕ} {input : List UInt8}
    (henough : size ≤ input.length) (state : σ) :
    little size state input =
      (state, some (littleEndian (input.take size), input.drop size)) := by
  simp [little, X3.bind, bytes, henough]

theorem little_of_short {size : ℕ} {input : List UInt8}
    (hshort : input.length < size) (state : σ) :
    little size state input = (state, none) := by
  simp [little, X3.bind, bytes, not_le.mpr hshort]

/-- The number of that size, that many bytes into the input. -/
def littleAt (size offset : ℕ) (input : List UInt8) : ℕ :=
  littleEndian ((input.drop offset).take size)

def byteAt (offset : ℕ) (input : List UInt8) : UInt8 :=
  input.getD offset 0

theorem little_drop {size offset : ℕ} {input : List UInt8}
    (henough : offset + size ≤ input.length) (state : σ) :
    little size state (input.drop offset) =
      (state, some (littleAt size offset input, input.drop (offset + size))) := by
  rw [little_of_enough (by rw [List.length_drop]; omega), List.drop_drop, littleAt]

theorem byte_drop {offset : ℕ} {input : List UInt8} (henough : offset < input.length)
    (state : σ) :
    byte state (input.drop offset) =
      (state, some (byteAt offset input, input.drop (offset + 1))) := by
  rw [List.drop_eq_getElem_cons henough, byte_cons, byteAt,
    List.getD_eq_getElem _ _ henough]

/-- Repeated bytes are skipped. -/
theorem repeatN_byte_drop (count : ℕ) {offset : ℕ} {input : List UInt8}
    (henough : offset + count ≤ input.length) (state : σ) :
    repeatN count byte state (input.drop offset) =
      (state, some ((input.drop offset).take count, input.drop (offset + count))) := by
  induction count generalizing offset with
  | zero => simp [repeatN]
  | succ count ih =>
      have hnext := ih (show offset + 1 + count ≤ input.length by omega)
      rw [repeatN, bind_of_some (byte_drop (by omega) state), bind_of_some hnext]
      have hlt : offset < input.length := by omega
      rw [List.drop_eq_getElem_cons hlt, List.take_succ_cons, byteAt,
        List.getD_eq_getElem _ _ hlt]
      simp [Nat.add_comm, Nat.add_left_comm]

theorem big_of_length {size : ℕ} {first : List UInt8} (hfirst : first.length = size)
    (state : σ) (rest : List UInt8) :
    big size state (first ++ rest) = (state, some (bigEndian first, rest)) := by
  subst hfirst
  simp [big, X3.bind, bytes]

theorem bigLit_of_length {size value : ℕ} {first : List UInt8}
    (hfirst : first.length = size) (state : σ) (rest : List UInt8) :
    bigLit size value state (first ++ rest) =
      if bigEndian first = value then (state, some ((), rest)) else (state, none) := by
  have hbig := big_of_length hfirst state rest
  by_cases hvalue : bigEndian first = value
  · simp [bigLit, act, hbig, hvalue]
  · have hne : (bigEndian first == value) = false := beq_eq_false_iff_ne.mpr hvalue
    simp [bigLit, act, hbig, hvalue, hne]

/-- A repeated parser of a fixed size reads the parts of its input. -/
theorem repeatN_of_length {parser : Parser σ α} {size : ℕ} {decode : List UInt8 → α}
    (hparser : ∀ state first rest, first.length = size →
      parser state (first ++ rest) = (state, some (decode first, rest)))
    (count : ℕ) {content : List UInt8} (hcontent : content.length = count * size)
    (state : σ) (rest : List UInt8) :
    repeatN count parser state (content ++ rest) =
      (state, some ((List.range count).map fun index =>
        decode ((content.drop (index * size)).take size), rest)) := by
  induction count generalizing content with
  | zero =>
      rw [Nat.zero_mul, List.length_eq_zero_iff] at hcontent
      subst hcontent
      rfl
  | succ count ih =>
      have hle : size ≤ content.length := by
        rw [hcontent, Nat.succ_mul]
        exact Nat.le_add_left _ _
      have hfirst : (content.take size).length = size := List.length_take_of_le hle
      have hmore : (content.drop size).length = count * size := by
        rw [List.length_drop, hcontent, Nat.succ_mul, Nat.add_sub_cancel]
      have hhead := hparser state (content.take size) (content.drop size ++ rest) hfirst
      rw [← List.append_assoc, List.take_append_drop] at hhead
      rw [repeatN, bind_of_some hhead, bind_of_some (ih hmore), List.range_succ_eq_map]
      simp only [List.map_cons, List.map_map, Nat.zero_mul, List.drop_zero,
        Function.comp_def, List.drop_drop, Nat.succ_mul, Nat.add_comm size]
      rfl

/-! ## Repetition -/

def Consumes (parser : Parser σ α) : Prop :=
  ∀ state input state' value rest,
    parser state input = (state', some (value, rest)) →
      rest.length < input.length

/-- Attempts beyond the length of the input make no difference. -/
theorem kleeneAttempts_of_enough {parser : Parser σ α}
    (hconsumes : Consumes parser) (attempts attempts' : ℕ) (state : σ)
    (input : List UInt8) (henough : input.length < attempts)
    (henough' : input.length < attempts') :
    kleeneAttempts parser attempts state input =
      kleeneAttempts parser attempts' state input := by
  induction attempts generalizing attempts' state input with
  | zero => omega
  | succ attempts ih =>
      cases attempts' with
      | zero => omega
      | succ attempts' =>
          simp only [kleeneAttempts]
          cases hparser : parser state input with
          | mk state' outcome =>
              cases outcome with
              | none => rfl
              | some pair =>
                  obtain ⟨value, rest⟩ := pair
                  have hshorter := hconsumes _ _ _ _ _ hparser
                  simp only [ih attempts' state' rest
                    (by omega) (by omega)]

theorem kleene_eq {parser : Parser σ α} (hconsumes : Consumes parser)
    (state : σ) (input : List UInt8) :
    kleene parser state input =
      match parser state input with
      | (state', none) => (state', some ([], input))
      | (state', some (value, rest)) =>
          match kleene parser state' rest with
          | (state'', some (values, rest')) =>
              (state'', some (value :: values, rest'))
          | (state'', none) => (state'', none) := by
  conv_lhs => rw [kleene, kleeneAttempts]
  cases hparser : parser state input with
  | mk state' outcome =>
      cases outcome with
      | none => rfl
      | some pair =>
          obtain ⟨value, rest⟩ := pair
          have hshorter := hconsumes _ _ _ _ _ hparser
          simp only [kleene, kleeneAttempts_of_enough hconsumes _ _ state' rest
            hshorter (Nat.lt_succ_self rest.length)]

theorem kleene_of_none {parser : Parser σ α} (hconsumes : Consumes parser)
    {state state' : σ} {input : List UInt8}
    (hparser : parser state input = (state', none)) :
    kleene parser state input = (state', some ([], input)) := by
  rw [kleene_eq hconsumes, hparser]

theorem kleene_of_some {parser : Parser σ α} (hconsumes : Consumes parser)
    {state state' state'' : σ} {input rest rest' : List UInt8}
    {value : α} {values : List α}
    (hparser : parser state input = (state', some (value, rest)))
    (htail : kleene parser state' rest = (state'', some (values, rest'))) :
    kleene parser state input =
      (state'', some (value :: values, rest')) := by
  rw [kleene_eq hconsumes, hparser]
  simp only [htail]

/-- A sequence of encodings is read by the repetition of a parser that reads
one. -/
theorem kleene_flatMap {ι : Type} {parser : Parser σ α} {encode : ι → List UInt8}
    {value : ι → α} {state : σ} (hnil : parser state [] = (state, none))
    (hparser : ∀ item rest,
      parser state (encode item ++ rest) = (state, some (value item, rest)))
    (hencode : ∀ item, encode item ≠ []) (items : List ι) :
    kleene parser state (items.flatMap encode) =
      (state, some (items.map value, [])) := by
  have hattempts : ∀ attempts, items.length < attempts →
      kleeneAttempts parser attempts state (items.flatMap encode) =
        (state, some (items.map value, [])) := by
    induction items with
    | nil =>
        intro attempts hattempts
        obtain ⟨attempts, rfl⟩ := Nat.exists_eq_add_one_of_ne_zero hattempts.ne'
        rw [kleeneAttempts, List.flatMap_nil, hnil]
        rfl
    | cons item items ih =>
        intro attempts hattempts
        obtain ⟨attempts, rfl⟩ :=
          Nat.exists_eq_add_one_of_ne_zero (Nat.ne_zero_of_lt hattempts)
        simp only [List.flatMap_cons, kleeneAttempts, hparser,
          ih attempts (Nat.lt_of_succ_lt_succ hattempts), List.map_cons]
  have hlength : items.length ≤ (items.flatMap encode).length := by
    rw [List.length_flatMap]
    have hpositive : ∀ length ∈ items.map fun item => (encode item).length,
        1 ≤ length := by
      intro length hlength
      obtain ⟨item, -, rfl⟩ := List.mem_map.mp hlength
      exact List.length_pos_iff.mpr (hencode item)
    simpa using List.length_le_sum_of_one_le _ hpositive
  exact hattempts _ (Nat.lt_succ_of_le hlength)

/-! ## Counted repetition -/

/-- A variable which semantic actions count down. -/
structure Counter (σ : Type) where
  len : σ → ℤ
  setLen : σ → ℤ → σ
  len_setLen : ∀ state value, len (setLen state value) = value
  setLen_setLen : ∀ state value value',
    setLen (setLen state value) value' = setLen state value'
  setLen_len : ∀ state, setLen state (len state) = state

namespace Counter

/-- `_pass(ctx) = len-- > 0` -/
def haveMore (counter : Counter σ) (_ : α) (state : σ) : σ × Bool :=
  (counter.setLen state (counter.len state - 1), decide (0 < counter.len state))

/-- `_pass(ctx) = len < 0` -/
def haveAll (counter : Counter σ) (_ : α) (state : σ) : σ × Bool :=
  (state, decide (counter.len state < 0))

/-- An action on a byte which leaves the counter alone. -/
structure Neutral (counter : Counter σ) (add : UInt8 → σ → σ) : Prop where
  len_add : ∀ b state, counter.len (add b state) = counter.len state
  add_setLen : ∀ b state value,
    add b (counter.setLen state value) = counter.setLen (add b state) value

/-- `*(eps[have] >> byte_[add]) >> eps[done]` -/
def content (counter : Counter σ) (add : UInt8 → σ → σ) : Parser σ Unit := do
  let _ ← kleene (do
    act eps counter.haveMore
    act byte fun b state => (add b state, true))
  act eps counter.haveAll

variable {counter : Counter σ} {add : UInt8 → σ → σ}

/-- One round of the counted repetition. -/
def round (counter : Counter σ) (add : UInt8 → σ → σ) : Parser σ Unit :=
  X3.bind (act eps counter.haveMore) fun _ =>
    act byte fun b state => (add b state, true)

theorem round_of_pos (add : UInt8 → σ → σ) {state : σ} {b : UInt8}
    {rest : List UInt8} (hpos : 0 < counter.len state) :
    round counter add state (b :: rest) =
      (add b (counter.setLen state (counter.len state - 1)),
        some ((), rest)) := by
  simp [round, X3.bind, act, eps, haveMore, hpos]

theorem round_of_nonpos {state : σ} {input : List UInt8}
    (hnonpos : counter.len state ≤ 0) :
    round counter add state input =
      (counter.setLen state (counter.len state - 1), none) := by
  simp [round, X3.bind, act, eps, haveMore, not_lt.mpr hnonpos]

theorem round_nil {state : σ} (hpos : 0 < counter.len state) :
    round counter add state [] =
      (counter.setLen state (counter.len state - 1), none) := by
  simp [round, X3.bind, act, eps, haveMore, hpos]

theorem round_consumes : Consumes (round counter add) := by
  intro state input state' value rest hround
  by_cases hpos : 0 < counter.len state
  · cases input with
    | nil => simp [round_nil hpos] at hround
    | cons b tail =>
        rw [round_of_pos add hpos] at hround
        simp only [Prod.mk.injEq, Option.some.injEq, true_and] at hround
        simp [← hround.2]
  · rw [round_of_nonpos (not_lt.mp hpos)] at hround
    simp at hround

/-- The repetition reads as many bytes as the counter says, or all there are. -/
theorem kleene_round (hadd : Neutral counter add) (state : σ) (n : ℕ)
    (hlen : counter.len state = n) (input : List UInt8) :
    ∃ units,
      kleene (round counter add) state input =
        (counter.setLen
            ((input.take n).foldl (fun state b => add b state) state)
            ((n : ℤ) - (input.take n).length - 1),
          some (units, input.drop n)) := by
  induction n generalizing state input with
  | zero =>
      refine ⟨[], ?_⟩
      have hround : round counter add state input = _ :=
        round_of_nonpos (by simp [hlen])
      rw [kleene_of_none round_consumes hround]
      simp [hlen]
  | succ n ih =>
      have hpos : 0 < counter.len state := by rw [hlen]; positivity
      cases input with
      | nil =>
          refine ⟨[], ?_⟩
          rw [kleene_of_none round_consumes (round_nil hpos)]
          simp [hlen]
      | cons b rest =>
          have hround : round counter add state (b :: rest) = _ :=
            round_of_pos add hpos
          have hlen' :
              counter.len (add b (counter.setLen state (counter.len state - 1))) =
                n := by
            rw [hadd.len_add, counter.len_setLen, hlen]
            push_cast
            ring
          obtain ⟨units, hunits⟩ := ih _ hlen' rest
          refine ⟨() :: units, ?_⟩
          rw [kleene_of_some round_consumes hround hunits]
          have hfold : ∀ (bs : List UInt8) (start : σ) (value : ℤ),
              bs.foldl (fun state b => add b state)
                  (counter.setLen start value) =
                counter.setLen (bs.foldl (fun state b => add b state) start)
                  value := by
            intro bs
            induction bs with
            | nil => simp
            | cons c bs ihbs =>
                intro start value
                rw [List.foldl_cons, hadd.add_setLen, ihbs]
                rfl
          rw [hadd.add_setLen, hfold, counter.setLen_setLen]
          simp only [List.take_succ_cons, List.foldl_cons, List.drop_succ_cons,
            List.length_cons]
          congr 2
          push_cast
          ring

theorem content_eq (counter : Counter σ) (add : UInt8 → σ → σ) :
    content counter add =
      X3.bind (kleene (round counter add)) fun _ => act eps counter.haveAll := rfl

/-- With enough input the counted repetition consumes exactly `n` bytes and
performs the action on each of them. -/
theorem content_of_enough (hadd : Neutral counter add) {state : σ} {n : ℕ}
    (hlen : counter.len state = n) {input : List UInt8}
    (henough : n ≤ input.length) :
    content counter add state input =
      (counter.setLen
          ((input.take n).foldl (fun state b => add b state) state) (-1),
        some ((), input.drop n)) := by
  obtain ⟨units, hunits⟩ := kleene_round hadd state n hlen input
  have hneg : (n : ℤ) - (input.take n).length - 1 = -1 := by
    rw [List.length_take, min_eq_left henough]
    ring
  rw [content_eq, bind_of_some hunits, hneg]
  simp [act, eps, haveAll, counter.len_setLen]

/-- With too little input it fails. -/
theorem content_of_short (hadd : Neutral counter add) {state : σ} {n : ℕ}
    (hlen : counter.len state = n) {input : List UInt8}
    (hshort : input.length < n) :
    (content counter add state input).2 = none := by
  obtain ⟨units, hunits⟩ := kleene_round hadd state n hlen input
  have hnonneg : ¬ (n : ℤ) - (input.take n).length - 1 < 0 := by
    rw [List.length_take, min_eq_right hshort.le]
    omega
  rw [content_eq, bind_of_some hunits]
  simp only [act, eps, haveAll, counter.len_setLen, hnonneg, decide_false]

end Counter

/-! ## Looking for a preamble of two bytes -/

/-- What follows the first occurrence of two adjacent bytes. -/
def afterPreamble (first second : UInt8) : List UInt8 → Option (List UInt8)
  | a :: b :: rest =>
      if a = first ∧ b = second then some rest
      else afterPreamble first second (b :: rest)
  | _ => none

/-- `byte_(first) >> byte_(second)` -/
def preamble (first second : UInt8) : Parser σ Unit := do
  byteLit first
  byteLit second

/-- `*(byte_ - preamble)` -/
def junk (first second : UInt8) : Parser σ (List UInt8) :=
  kleene (diff byte (preamble first second))

/-- `junk >> preamble` -/
def junkPreamble (first second : UInt8) : Parser σ Unit := do
  let _ ← junk first second
  preamble first second

theorem preamble_cons_cons (first second : UInt8) (state : σ) (a b : UInt8)
    (rest : List UInt8) :
    preamble first second state (a :: b :: rest) =
      if a = first ∧ b = second then (state, some ((), rest))
      else (state, none) := by
  by_cases ha : a = first
  · by_cases hb : b = second <;>
      simp [preamble, X3.bind, byteLit_cons, ha, hb]
  · simp [preamble, X3.bind, byteLit_cons, ha]

theorem preamble_singleton (first second : UInt8) (state : σ) (a : UInt8) :
    preamble first second state [a] = (state, none) := by
  by_cases ha : a = first <;> simp [preamble, X3.bind, byteLit_cons, ha]

theorem notPreamble_consumes (first second : UInt8) :
    Consumes (diff byte (preamble (σ := σ) first second)) := by
  intro state input state' value rest hdiff
  unfold diff at hdiff
  cases hpreamble : preamble first second state input with
  | mk state'' outcome =>
      cases outcome with
      | some pair => simp [hpreamble] at hdiff
      | none =>
          cases input with
          | nil => simp [hpreamble] at hdiff
          | cons b tail =>
              simp only [hpreamble, byte_cons, Prod.mk.injEq,
                Option.some.injEq] at hdiff
              simp [hdiff.2.2]

/-- Junk and preamble together skip to just behind the first preamble. -/
theorem junkPreamble_eq (first second : UInt8) (state : σ)
    (input : List UInt8) :
    junkPreamble first second state input =
      match afterPreamble first second input with
      | none => (state, none)
      | some rest => (state, some ((), rest)) := by
  suffices hjunk : ∃ values rest,
      junk first second state input = (state, some (values, rest)) ∧
        preamble first second state rest =
          match afterPreamble first second input with
          | none => (state, none)
          | some rest => (state, some ((), rest)) by
    obtain ⟨values, rest, hjunk, hpreamble⟩ := hjunk
    rw [junkPreamble, bind_eq, bind_of_some hjunk, hpreamble]
  have hconsumes := notPreamble_consumes (σ := σ) first second
  induction input with
  | nil =>
      refine ⟨[], [], ?_, rfl⟩
      exact kleene_of_none hconsumes rfl
  | cons a tail ih =>
      cases tail with
      | nil =>
          refine ⟨[a], [], ?_, rfl⟩
          have hbyte : diff byte (preamble first second) state [a] =
              (state, some (a, [])) := by
            simp [diff, preamble_singleton]
          exact kleene_of_some hconsumes hbyte
            (kleene_of_none hconsumes rfl)
      | cons b rest =>
          by_cases hfound : a = first ∧ b = second
          · refine ⟨[], a :: b :: rest, ?_, ?_⟩
            · apply kleene_of_none hconsumes
              simp [diff, preamble_cons_cons, hfound]
            · simp [preamble_cons_cons, afterPreamble, hfound]
          · obtain ⟨values, rest', hjunk, hpreamble⟩ := ih
            refine ⟨a :: values, rest', ?_, ?_⟩
            · have hbyte : diff byte (preamble first second) state
                    (a :: b :: rest) = (state, some (a, b :: rest)) := by
                simp [diff, preamble_cons_cons, hfound]
              exact kleene_of_some hconsumes hbyte hjunk
            · rw [hpreamble, afterPreamble, if_neg hfound]

theorem afterPreamble_length {first second : UInt8} {input rest : List UInt8}
    (hafter : afterPreamble first second input = some rest) :
    rest.length + 2 ≤ input.length := by
  fun_induction afterPreamble first second input with
  | case1 a b tail hfound =>
      simp only [Option.some.injEq] at hafter
      simp [hafter]
  | case2 a b tail hnot ih =>
      have hle := ih hafter
      simp only [List.length_cons] at hle ⊢
      omega
  | case3 input hnot => simp at hafter

/-- More input behind it does not move the first preamble. -/
theorem afterPreamble_append {first second : UInt8} {input rest : List UInt8}
    (hafter : afterPreamble first second input = some rest)
    (more : List UInt8) :
    afterPreamble first second (input ++ more) = some (rest ++ more) := by
  fun_induction afterPreamble first second input with
  | case1 a b tail hfound =>
      simp only [Option.some.injEq] at hafter
      simp [afterPreamble, hfound, hafter]
  | case2 a b tail hnot ih =>
      simpa only [List.cons_append, afterPreamble, if_neg hnot] using ih hafter
  | case3 input hnot => simp at hafter

end X3
