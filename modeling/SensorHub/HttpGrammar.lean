import Mathlib.Data.List.ModifyLast
import SensorHub.HttpParser
import SensorHub.Recognizers

/-!
# The grammar of HTTP requests

A message of the grammar carries the conditions on its parts.  For every state
of the parser there is a form, which says what can still follow in that state
and how the request ends up then.  Each character the parser consumes takes the
derivative of the form, and so the parser accepts exactly the messages, with the
requests they denote.
-/

namespace SensorHub.Http

open Recognizers

/-! ## Messages -/

def IsToken (c : Char8) : Prop :=
  isChar c = true ∧ isCtl c = false ∧ isTspecial c = false

def IsText (c : Char8) : Prop :=
  isCtl c = false

def IsUriChar (c : Char8) : Prop :=
  isCtl c = false ∧ c ≠ chr ' '

def IsDigit (c : Char8) : Prop :=
  isDigit c = true

def IsBlank (c : Char8) : Prop :=
  c = chr ' ' ∨ c = chr '\t'

instance : DecidablePred IsToken := fun _ =>
  inferInstanceAs (Decidable (_ ∧ _ ∧ _))

instance : DecidablePred IsText := fun _ => inferInstanceAs (Decidable (_ = _))

instance : DecidablePred IsUriChar := fun _ =>
  inferInstanceAs (Decidable (_ ∧ _))

instance : DecidablePred IsDigit := fun _ => inferInstanceAs (Decidable (_ = _))

instance : DecidablePred IsBlank := fun _ =>
  inferInstanceAs (Decidable (_ ∨ _))

def crlf : List Char8 :=
  [chr '\r', chr '\n']

/-- A continuation line: all blanks at its start, and the text after them. -/
structure Continuation where
  blanks : List Char8
  text : List Char8
  blanks_ne : blanks ≠ []
  isBlank : ∀ c ∈ blanks, IsBlank c
  isText : ∀ c ∈ text, IsText c
  starts : ∀ c ∈ text.head?, ¬IsBlank c

structure Field where
  name : List Char8
  value : List Char8
  continuations : List Continuation
  name_ne : name ≠ []
  isToken : ∀ c ∈ name, IsToken c
  isText : ∀ c ∈ value, IsText c

structure Message where
  method : List Char8
  uri : List Char8
  major : List Char8
  minor : List Char8
  fields : List Field
  method_ne : method ≠ []
  isToken : ∀ c ∈ method, IsToken c
  isUriChar : ∀ c ∈ uri, IsUriChar c
  major_ne : major ≠ []
  majorDigits : ∀ c ∈ major, IsDigit c
  minor_ne : minor ≠ []
  minorDigits : ∀ c ∈ minor, IsDigit c

def Continuation.chars (line : Continuation) : List Char8 :=
  line.blanks ++ line.text ++ crlf

/-- Append the text of continuation lines to a value. -/
def Header.extend (lines : List Continuation) (header : Header) : Header :=
  { header with
    value := header.value ++ (lines.map Continuation.text).flatten }

namespace Field

def chars (field : Field) : List Char8 :=
  field.name ++ [chr ':', chr ' '] ++ field.value ++ crlf ++
    (field.continuations.map Continuation.chars).flatten

def header (field : Field) : Header :=
  Header.extend field.continuations ⟨field.name, field.value⟩

end Field

def number (digits : List Char8) : ℤ :=
  digits.foldl Request.pushDigit 0

namespace Message

def chars (message : Message) : List Char8 :=
  message.method ++ [chr ' '] ++ message.uri ++ [chr ' '] ++
    [chr 'H', chr 'T', chr 'T', chr 'P', chr '/'] ++
    message.major ++ [chr '.'] ++ message.minor ++ crlf ++
    (message.fields.map Field.chars).flatten ++ crlf

def request (message : Message) : Request where
  method := message.method
  uri := message.uri
  httpVersionMajor := number message.major
  httpVersionMinor := number message.minor
  headers := message.fields.map Field.header

end Message

/-! ## Forms of the states -/

/-- What can follow at the start of a line: continuation lines of the last
header, fields and the empty line. -/
def lines : Form Request Char8 :=
  fun req word req' =>
    ∃ (continuations : List Continuation) (fields : List Field),
      (req.headers = [] → continuations = []) ∧
      word = (continuations.map Continuation.chars).flatten ++
        (fields.map Field.chars).flatten ++ crlf ∧
      req' = { req with
        headers := req.headers.modifyLast (Header.extend continuations) ++
          fields.map Field.header }

def newlineForm : Form Request Char8 :=
  Form.lit (chr '\n') lines

def valueForm : Form Request Char8 :=
  Form.many IsText Request.pushValue (Form.lit (chr '\r') newlineForm)

def spaceForm : Form Request Char8 :=
  Form.lit (chr ' ') valueForm

def nameForm : Form Request Char8 :=
  Form.many IsToken Request.pushName (Form.lit (chr ':') spaceForm)

/-- More blanks of a continuation line, and then its text. -/
def lwsForm : Form Request Char8 :=
  Form.many IsBlank (fun req _ => req) fun req word req' =>
    (∀ c ∈ word.head?, ¬IsBlank c) ∧ valueForm req word req'

def minorForm : Form Request Char8 :=
  Form.many IsDigit Request.pushMinor (Form.lit (chr '\r') newlineForm)

def minorStartForm : Form Request Char8 :=
  Form.many1 IsDigit Request.pushMinor (Form.lit (chr '\r') newlineForm)

def majorForm : Form Request Char8 :=
  Form.many IsDigit Request.pushMajor (Form.lit (chr '.') minorStartForm)

def majorStartForm : Form Request Char8 :=
  Form.many1 IsDigit Request.pushMajor (Form.lit (chr '.') minorStartForm)

def versionForm : Form Request Char8 :=
  fun req => majorStartForm req.clearVersion

def slashForm : Form Request Char8 :=
  Form.lit (chr '/') versionForm

def uriForm : Form Request Char8 :=
  Form.many IsUriChar Request.pushUri
    (Form.lit (chr ' ') (Form.lit (chr 'H') (Form.lit (chr 'T')
      (Form.lit (chr 'T') (Form.lit (chr 'P') slashForm)))))

def formAt : State → Form Request Char8
  | .methodStart =>
      Form.many1 IsToken Request.pushMethod (Form.lit (chr ' ') uriForm)
  | .method =>
      Form.many IsToken Request.pushMethod (Form.lit (chr ' ') uriForm)
  | .uri => uriForm
  | .httpVersionH =>
      Form.lit (chr 'H') (Form.lit (chr 'T')
        (Form.lit (chr 'T') (Form.lit (chr 'P') slashForm)))
  | .httpVersionT1 =>
      Form.lit (chr 'T') (Form.lit (chr 'T') (Form.lit (chr 'P') slashForm))
  | .httpVersionT2 => Form.lit (chr 'T') (Form.lit (chr 'P') slashForm)
  | .httpVersionP => Form.lit (chr 'P') slashForm
  | .httpVersionSlash => slashForm
  | .httpVersionMajorStart => majorStartForm
  | .httpVersionMajor => majorForm
  | .httpVersionMinorStart => minorStartForm
  | .httpVersionMinor => minorForm
  | .expectingNewline1 => newlineForm
  | .headerLineStart => lines
  | .headerLws => lwsForm
  | .headerName => nameForm
  | .spaceBeforeHeaderValue => spaceForm
  | .headerValue => valueForm
  | .expectingNewline2 => newlineForm
  | .expectingNewline3 => Form.lit (chr '\n') Form.done

/-! ## The start of a line -/

theorem modifyLast_id (headers : List Header) :
    (headers.modifyLast fun header => header) = headers := by
  rcases List.eq_nil_or_concat' headers with rfl | ⟨start, last, rfl⟩
  · rfl
  · rw [List.modifyLast_concat]

theorem modifyLast_modifyLast (change change' : Header → Header)
    (headers : List Header) :
    (headers.modifyLast change).modifyLast change' =
      headers.modifyLast (change' ∘ change) := by
  rcases List.eq_nil_or_concat' headers with rfl | ⟨start, last, rfl⟩
  · rfl
  · simp only [List.modifyLast_concat, Function.comp_apply]

/-- Changes of the last header, one for each character of a text. -/
theorem foldl_modifyBack {push : Request → Char8 → Request}
    (change : List Char8 → Header → Header) (hnil : change [] = fun header => header)
    (hcons : ∀ c text, change (c :: text) = change text ∘ change [c])
    (hpush : ∀ req c, push req c = req.modifyBack (change [c]))
    (text : List Char8) (req : Request) :
    text.foldl push req = req.modifyBack (change text) := by
  induction text generalizing req with
  | nil =>
      simp only [Request.modifyBack, hnil]
      rw [modifyLast_id]
      rfl
  | cons c text ih =>
      rw [List.foldl_cons, ih, hpush, hcons c text]
      simp only [Request.modifyBack, modifyLast_modifyLast]

theorem foldl_pushValue (text : List Char8) (req : Request) :
    text.foldl Request.pushValue req =
      req.modifyBack fun header =>
        { header with value := header.value ++ text } :=
  foldl_modifyBack (fun text header => { header with value := header.value ++ text })
    (by simp) (fun c text => by funext header; simp) (fun _ _ => rfl) text req

theorem foldl_pushName (text : List Char8) (req : Request) :
    text.foldl Request.pushName req =
      req.modifyBack fun header =>
        { header with name := header.name ++ text } :=
  foldl_modifyBack (fun text header => { header with name := header.name ++ text })
    (by simp) (fun c text => by funext header; simp) (fun _ _ => rfl) text req

theorem Header.extend_cons (line : Continuation) (more : List Continuation) :
    Header.extend (line :: more) = Header.extend more ∘ fun header =>
      { header with value := header.value ++ line.text } := by
  funext header
  simp [Header.extend]

theorem modifyLast_extend_nil (headers : List Header) :
    headers.modifyLast (Header.extend []) = headers := by
  have hextend : Header.extend [] = fun header => header := by
    funext header
    simp [Header.extend]
  rw [hextend, modifyLast_id]

theorem modifyBack_headers_ne_nil {req : Request} (change : Header → Header)
    (hreq : req.headers ≠ []) : (req.modifyBack change).headers ≠ [] := by
  obtain ⟨start, last, hlast⟩ :=
    (List.eq_nil_or_concat' req.headers).resolve_left hreq
  simp [Request.modifyBack, hlast, List.modifyLast_concat]

theorem lwsForm_iff {c : Char8} (hblank : IsBlank c) (word : List Char8)
    (req req' : Request) :
    lwsForm req word req' ↔
      ∃ (line : Continuation) (rest : List Char8),
        c :: word = line.chars ++ rest ∧
          lines (line.text.foldl Request.pushValue req) rest req' := by
  constructor
  · rintro ⟨blanks, after, hblanks, rfl, hstart, hvalue⟩
    obtain ⟨text, tail, htext, rfl, hline⟩ := hvalue
    obtain ⟨tail, rfl, rest, rfl, hrest⟩ := hline
    rw [List.foldl_fixed] at hrest
    have hstarts : ∀ first ∈ text.head?, ¬IsBlank first := by
      intro first hfirst
      apply hstart first
      rw [Option.mem_def] at hfirst ⊢
      rw [List.head?_append, hfirst, Option.some_or]
    refine ⟨⟨c :: blanks, text, List.cons_ne_nil c blanks, ?_, htext, hstarts⟩,
      rest, ?_, hrest⟩
    · rw [List.forall_mem_cons]
      exact ⟨hblank, hblanks⟩
    · simp [Continuation.chars, crlf]
  · rintro ⟨line, rest, hword, hrest⟩
    obtain ⟨first, blanks, hblanks⟩ := List.exists_cons_of_ne_nil line.blanks_ne
    have hall := line.isBlank
    rw [hblanks, List.forall_mem_cons] at hall
    simp only [Continuation.chars, hblanks, List.cons_append, List.cons.injEq,
      List.append_assoc] at hword
    refine ⟨blanks, line.text ++ (crlf ++ rest), hall.2, hword.2, ?_, ?_⟩
    · intro start hstart
      cases htext : line.text with
      | nil =>
          rw [htext, List.nil_append, crlf, List.cons_append, List.head?_cons,
            Option.mem_some_iff] at hstart
          rw [← hstart]
          decide
      | cons start' text =>
          rw [htext, List.cons_append, List.head?_cons, Option.mem_some_iff] at hstart
          apply line.starts
          rw [htext, ← hstart]
          rfl
    · rw [List.foldl_fixed]
      exact ⟨line.text, crlf ++ rest, line.isText, rfl, _, rfl, _, rfl, hrest⟩

theorem nameForm_pushHeader_iff (c : Char8) (word : List Char8)
    (req req' : Request) :
    nameForm (req.pushHeader c) word req' ↔
      ∃ name value rest, (∀ c ∈ name, IsToken c) ∧ (∀ c ∈ value, IsText c) ∧
        word = name ++ [chr ':', chr ' '] ++ value ++ crlf ++ rest ∧
        lines { req with headers := req.headers ++ [⟨c :: name, value⟩] }
          rest req' := by
  have hpushed : ∀ name value : List Char8,
      value.foldl Request.pushValue
          (name.foldl Request.pushName (req.pushHeader c)) =
        { req with headers := req.headers ++ [⟨c :: name, value⟩] } := by
    intro name value
    rw [foldl_pushValue, foldl_pushName]
    simp [Request.modifyBack, Request.pushHeader, List.modifyLast_concat]
  constructor
  · rintro ⟨name, after, hname, rfl, _, rfl, _, rfl, hvalue⟩
    obtain ⟨value, _, hvalue, rfl, _, rfl, rest, rfl, hrest⟩ := hvalue
    rw [hpushed] at hrest
    exact ⟨name, value, rest, hname, hvalue, by simp [crlf], hrest⟩
  · rintro ⟨name, value, rest, hname, hvalue, rfl, hrest⟩
    refine ⟨name, chr ':' :: chr ' ' :: (value ++ (crlf ++ rest)), hname,
      by simp, _, rfl, _, rfl, value, crlf ++ rest, hvalue, rfl, _, rfl, rest,
      rfl, ?_⟩
    rwa [hpushed]

theorem lines_cons_iff (req req' : Request) (c : Char8) (word : List Char8) :
    lines req (c :: word) req' ↔
      (c = chr '\r' ∧ Form.lit (chr '\n') Form.done req word req') ∨
      (req.headers ≠ [] ∧ IsBlank c ∧ lwsForm req word req') ∨
      (IsToken c ∧ nameForm (req.pushHeader c) word req') := by
  constructor
  · rintro ⟨continuations, fields, hnone, hword, rfl⟩
    cases continuations with
    | nil =>
        cases fields with
        | nil =>
            obtain ⟨rfl, rfl⟩ := List.cons.inj hword
            exact Or.inl ⟨rfl, [], rfl, rfl, by simp [modifyLast_extend_nil]⟩
        | cons field fields =>
            obtain ⟨first, name, hname⟩ :=
              List.exists_cons_of_ne_nil field.name_ne
            have htoken := field.isToken
            rw [hname, List.forall_mem_cons] at htoken
            simp only [List.map_nil, List.flatten_nil, List.nil_append,
              List.map_cons, List.flatten_cons, Field.chars, hname,
              List.cons_append, List.cons.injEq] at hword
            obtain ⟨rfl, rfl⟩ := hword
            refine Or.inr (Or.inr ⟨htoken.1,
              (nameForm_pushHeader_iff _ _ _ _).mpr
                ⟨name, field.value, _, htoken.2, field.isText, ?_,
                  field.continuations, fields, by simp, rfl, ?_⟩⟩)
            · simp
            · simp [modifyLast_extend_nil, List.modifyLast_concat, Field.header,
                hname]
    | cons line continuations =>
        have hreq : req.headers ≠ [] := fun hnil => by simpa using hnone hnil
        obtain ⟨first, blanks, hblanks⟩ :=
          List.exists_cons_of_ne_nil line.blanks_ne
        have hblank : IsBlank c := by
          simp only [List.map_cons, List.flatten_cons, Continuation.chars,
            hblanks, List.cons_append, List.cons.injEq] at hword
          apply line.isBlank
          rw [hblanks, hword.1]
          exact List.mem_cons_self
        refine Or.inr (Or.inl ⟨hreq, hblank, (lwsForm_iff hblank _ _ _).mpr
          ⟨line, _, ?_, continuations, fields, ?_, rfl, ?_⟩⟩)
        · simpa using hword
        · intro hnil
          rw [foldl_pushValue] at hnil
          exact absurd hnil (modifyBack_headers_ne_nil _ hreq)
        · rw [foldl_pushValue]
          simp [Request.modifyBack, modifyLast_modifyLast, Header.extend_cons]
  · rintro (⟨rfl, rest, rfl, rfl, rfl⟩ | ⟨hreq, hblank, hlws⟩ | ⟨htoken, hname⟩)
    · refine ⟨[], [], by simp, rfl, ?_⟩
      simp [modifyLast_extend_nil]
    · obtain ⟨line, rest, hword, continuations, fields, hnone, rfl, rfl⟩ :=
        (lwsForm_iff hblank _ _ _).mp hlws
      refine ⟨line :: continuations, fields, fun hnil => absurd hnil hreq, ?_, ?_⟩
      · simpa using hword
      · rw [foldl_pushValue]
        simp [Request.modifyBack, modifyLast_modifyLast, Header.extend_cons]
    · obtain ⟨name, value, rest, htokens, htext, rfl, hrest⟩ :=
        (nameForm_pushHeader_iff _ _ _ _).mp hname
      obtain ⟨continuations, fields, -, rfl, rfl⟩ := hrest
      have hall : ∀ b ∈ c :: name, IsToken b := by
        rw [List.forall_mem_cons]
        exact ⟨htoken, htokens⟩
      refine ⟨[], ⟨c :: name, value, continuations, List.cons_ne_nil c name,
        hall, htext⟩ :: fields, fun _ => rfl, ?_, ?_⟩
      · simp [Field.chars]
      · simp [modifyLast_extend_nil, List.modifyLast_concat, Field.header]

/-! ## Steps -/

def Started (state : State) (req : Request) : Prop :=
  state = .headerLws ∨ state = .headerName ∨ state = .spaceBeforeHeaderValue ∨
    state = .headerValue → req.headers ≠ []

/-- Consuming the character takes the derivative of the form. -/
def Takes (state : State) (req : Request) (c : Char8)
    (consumed : Option Consumed) : Prop :=
  ∃ state' req' result, consumed = some ⟨result, state', req'⟩ ∧
    match result with
    | .good => ∀ word final,
        formAt state req (c :: word) final ↔ word = [] ∧ final = req'
    | .bad => ∀ word final, ¬formAt state req (c :: word) final
    | .indeterminate => Started state' req' ∧ ∀ word final,
        formAt state req (c :: word) final ↔ formAt state' req' word final

theorem takes_goOn {state state' : State} {req req' : Request} {c : Char8}
    (hstarted : Started state' req')
    (hform : ∀ word final,
      formAt state req (c :: word) final ↔ formAt state' req' word final) :
    Takes state req c (some (Consumed.goOn state' req')) :=
  ⟨state', req', .indeterminate, rfl, hstarted, hform⟩

theorem takes_bad {state : State} {req : Request} {c : Char8}
    (hform : ∀ word final, ¬formAt state req (c :: word) final) :
    Takes state req c (some ⟨.bad, state, req⟩) :=
  ⟨state, req, .bad, rfl, hform⟩

theorem takes_lit {state state' : State} {req req' : Request} {c symbol : Char8}
    {rest : Form Request Char8} (hstarted : Started state' req')
    (hform : formAt state = Form.lit symbol rest)
    (hrest : rest req = formAt state' req') :
    Takes state req c
      (if c = symbol then some (Consumed.goOn state' req')
        else some ⟨.bad, state, req⟩) := by
  split_ifs with hc
  · apply takes_goOn hstarted
    intro word final
    rw [hform, Form.lit_cons_iff, hrest]
    simp [hc]
  · apply takes_bad
    intro word final
    rw [hform, Form.lit_cons_iff]
    simp [hc]

theorem takes_many1 {state state' : State} {req : Request} {c : Char8}
    {accepts : Char8 → Prop} {push : Request → Char8 → Request}
    {rest : Form Request Char8} {consumed : Option Consumed}
    (hform : formAt state = Form.many1 accepts push rest)
    (hrest : formAt state' = Form.many accepts push rest)
    (hstarted : Started state' (push req c))
    (hpush : accepts c → consumed = some (Consumed.goOn state' (push req c)))
    (hbad : ¬accepts c → consumed = some ⟨.bad, state, req⟩) :
    Takes state req c consumed := by
  by_cases hc : accepts c
  · rw [hpush hc]
    apply takes_goOn hstarted
    intro word final
    rw [hform, hrest, Form.many1_cons_iff]
    exact and_iff_right hc
  · rw [hbad hc]
    apply takes_bad
    intro word final
    rw [hform, Form.many1_cons_iff]
    exact fun h => hc h.1

theorem takes_many {state state' : State} {req : Request} {c stop : Char8}
    {accepts : Char8 → Prop} {push : Request → Char8 → Request}
    {rest : Form Request Char8} {consumed : Option Consumed}
    (hform : formAt state = Form.many accepts push (Form.lit stop rest))
    (hrest : rest = formAt state') (hstop : ¬accepts stop)
    (hstarted : Started state' req) (hstarted' : Started state (push req c))
    (hpush : c ≠ stop → accepts c →
      consumed = some (Consumed.goOn state (push req c)))
    (hbad : c ≠ stop → ¬accepts c → consumed = some ⟨.bad, state, req⟩) :
    Takes state req c
      (if c = stop then some (Consumed.goOn state' req) else consumed) := by
  by_cases hc : c = stop
  · subst hc
    rw [if_pos rfl]
    apply takes_goOn hstarted
    intro word final
    simp [hform, hstop, hrest]
  · rw [if_neg hc]
    by_cases haccepts : accepts c
    · rw [hpush hc haccepts]
      apply takes_goOn hstarted'
      intro word final
      simp [hform, haccepts, hc]
    · rw [hbad hc haccepts]
      apply takes_bad
      intro word final
      simp [hform, haccepts, hc]

theorem isToken_iff (c : Char8) :
    IsToken c ↔ ¬(!isChar c || isCtl c || isTspecial c) = true := by
  unfold IsToken
  cases isChar c <;> cases isCtl c <;> cases isTspecial c <;> simp

theorem isText_iff (c : Char8) : IsText c ↔ ¬isCtl c = true := by
  simp [IsText]

theorem started_modifyBack {state : State} {req : Request}
    (change : Header → Header) (hreq : req.headers ≠ []) :
    Started state (req.modifyBack change) := by
  intro _
  exact modifyBack_headers_ne_nil change hreq

theorem not_isToken_of_isBlank {c : Char8} (hblank : IsBlank c) :
    ¬IsToken c := by
  rcases hblank with rfl | rfl <;> decide

theorem takes_headerLineStart (req : Request) (c : Char8) :
    Takes .headerLineStart req c (consume .headerLineStart req c) := by
  have hform : ∀ word final, formAt .headerLineStart req (c :: word) final ↔ _ :=
    fun word final => lines_cons_iff req final c word
  unfold consume
  simp only []
  split
  · next hc =>
      apply takes_goOn (by simp [Started])
      intro word final
      rw [hform, hc]
      have hblank : ¬IsBlank (chr '\r') := by decide
      have htoken : ¬IsToken (chr '\r') := by decide
      simp [hblank, htoken, formAt]
  · next hc =>
      split
      · next hblank =>
          apply takes_goOn fun _ => hblank.1
          intro word final
          rw [hform]
          have htoken : ¬IsToken c := not_isToken_of_isBlank hblank.2
          have hblank' : IsBlank c := hblank.2
          simp [hc, htoken, hblank.1, hblank', formAt]
      · next hblank =>
          have hnone : ¬(req.headers ≠ [] ∧ IsBlank c) := hblank
          split
          · next hbad =>
              apply takes_bad
              intro word final
              have htoken : ¬IsToken c := by rwa [isToken_iff, not_not]
              rw [hform]
              rintro (h | h | h)
              · exact hc h.1
              · exact hnone ⟨h.1, h.2.1⟩
              · exact htoken h.1
          · next hbad =>
              apply takes_goOn (by simp [Started, Request.pushHeader])
              intro word final
              have htoken : IsToken c := (isToken_iff c).mpr hbad
              rw [hform]
              constructor
              · rintro (h | h | h)
                · exact absurd h.1 hc
                · exact absurd ⟨h.1, h.2.1⟩ hnone
                · exact h.2
              · exact fun h => Or.inr (Or.inr ⟨htoken, h⟩)

theorem lwsForm_cons_iff (req final : Request) (c : Char8) (word : List Char8) :
    lwsForm req (c :: word) final ↔
      IsBlank c ∧ lwsForm req word final ∨
        ¬IsBlank c ∧ (IsText c ∧ valueForm (req.pushValue c) word final ∨
          c = chr '\r' ∧ newlineForm req word final) := by
  unfold lwsForm
  rw [Form.many_cons_iff, List.head?_cons]
  simp [valueForm]

theorem takes_headerLws {req : Request} (hreq : req.headers ≠ []) (c : Char8) :
    Takes .headerLws req c (consume .headerLws req c) := by
  have hform : ∀ word final, formAt .headerLws req (c :: word) final ↔ _ :=
    fun word final => lwsForm_cons_iff req final c word
  unfold consume
  simp only []
  split
  · next hc =>
      apply takes_goOn (by simp [Started])
      intro word final
      rw [hform, hc]
      have hblank : ¬IsBlank (chr '\r') := by decide
      have htext : ¬IsText (chr '\r') := by decide
      simp [hblank, htext, formAt]
  · next hc =>
      split
      · next hblank =>
          apply takes_goOn fun _ => hreq
          intro word final
          have hblank' : IsBlank c := hblank
          rw [hform]
          simp [hblank', formAt]
      · next hblank =>
          have hnone : ¬IsBlank c := hblank
          split
          · next hbad =>
              apply takes_bad
              intro word final
              have htext : ¬IsText c := by rwa [isText_iff, not_not]
              rw [hform]
              simp [hc, hnone, htext]
          · next hbad =>
              have htext : IsText c := (isText_iff c).mpr hbad
              rw [withBack, if_neg hreq]
              apply takes_goOn (started_modifyBack _ hreq)
              intro word final
              rw [hform]
              simp [hc, hnone, htext, formAt, Request.pushValue]

theorem takes_consume {state : State} {req : Request}
    (hstarted : Started state req) (c : Char8) :
    Takes state req c (consume state req c) := by
  cases state with
  | methodStart =>
      exact takes_many1 rfl rfl (by simp [Started])
        (fun h => if_neg ((isToken_iff c).mp h))
        (fun h => if_pos (not_not.mp (mt (isToken_iff c).mpr h)))
  | method =>
      exact takes_many rfl rfl (by decide) (by simp [Started]) (by simp [Started])
        (fun _ h => if_neg ((isToken_iff c).mp h))
        (fun _ h => if_pos (not_not.mp (mt (isToken_iff c).mpr h)))
  | uri =>
      exact takes_many rfl rfl (by decide) (by simp [Started]) (by simp [Started])
        (fun _ h => if_neg ((isText_iff c).mp h.1))
        (fun hc h => if_pos (not_not.mp fun hctl =>
          h ⟨(isText_iff c).mpr hctl, hc⟩))
  | httpVersionH => exact takes_lit (by simp [Started]) rfl rfl
  | httpVersionT1 => exact takes_lit (by simp [Started]) rfl rfl
  | httpVersionT2 => exact takes_lit (by simp [Started]) rfl rfl
  | httpVersionP => exact takes_lit (by simp [Started]) rfl rfl
  | httpVersionSlash => exact takes_lit (by simp [Started]) rfl rfl
  | httpVersionMajorStart =>
      exact takes_many1 rfl rfl (by simp [Started]) (fun h => if_pos h)
        (fun h => if_neg h)
  | httpVersionMajor =>
      exact takes_many rfl rfl (by decide) (by simp [Started]) (by simp [Started])
        (fun _ h => if_pos h) (fun _ h => if_neg h)
  | httpVersionMinorStart =>
      exact takes_many1 rfl rfl (by simp [Started]) (fun h => if_pos h)
        (fun h => if_neg h)
  | httpVersionMinor =>
      exact takes_many rfl rfl (by decide) (by simp [Started]) (by simp [Started])
        (fun _ h => if_pos h) (fun _ h => if_neg h)
  | expectingNewline1 => exact takes_lit (by simp [Started]) rfl rfl
  | headerLineStart => exact takes_headerLineStart req c
  | headerLws => exact takes_headerLws (hstarted (by simp)) c
  | headerName =>
      have hreq := hstarted (by simp)
      exact takes_many rfl rfl (by decide) (fun _ => hreq)
        (started_modifyBack _ hreq)
        (fun _ h => (if_neg ((isToken_iff c).mp h)).trans (if_neg hreq))
        (fun _ h => if_pos (not_not.mp (mt (isToken_iff c).mpr h)))
  | spaceBeforeHeaderValue =>
      exact takes_lit (fun _ => hstarted (by simp)) rfl rfl
  | headerValue =>
      have hreq := hstarted (by simp)
      exact takes_many rfl rfl (by decide) (by simp [Started])
        (started_modifyBack _ hreq)
        (fun _ h => (if_neg ((isText_iff c).mp h)).trans (if_neg hreq))
        (fun _ h => if_pos (not_not.mp (mt (isText_iff c).mpr h)))
  | expectingNewline2 => exact takes_lit (by simp [Started]) rfl rfl
  | expectingNewline3 =>
      by_cases hc : c = chr '\n'
      · refine ⟨.expectingNewline3, req, .good, if_pos hc, ?_⟩
        intro word final
        simp [formAt, hc, Form.done]
      · refine ⟨.expectingNewline3, req, .bad, if_neg hc, ?_⟩
        intro word final
        simp [formAt, hc]

/-! ## The parser as a recognizer -/

/-- What a state and a request say about the next character. -/
def verdict (parser : State × Request) (c : Char8) :
    Verdict (State × Request) Request :=
  match consume parser.1 parser.2 c with
  | some ⟨.indeterminate, state, req⟩ => .next (state, req)
  | some ⟨.good, _, req⟩ => .accept req
  | _ => .reject

theorem alive_lines (req : Request) : lines.Alive req :=
  ⟨crlf, _, [], [], fun _ => rfl, rfl, rfl⟩

theorem alive_formAt (state : State) (req : Request) :
    (formAt state).Alive req := by
  have hdigit : IsDigit (chr '0') := by decide
  have htoken : IsToken (chr '0') := by decide
  have hnewline : ∀ req, newlineForm.Alive req := fun req =>
    (alive_lines req).lit _
  have hvalue : ∀ req, valueForm.Alive req := fun req =>
    ((hnewline req).lit _).many _ _
  have hminorStart : ∀ req, minorStartForm.Alive req := fun req =>
    ((hnewline _).lit _).many1 hdigit
  have hmajorStart : ∀ req, majorStartForm.Alive req := fun req =>
    ((hminorStart _).lit _).many1 hdigit
  have hversion : ∀ req, versionForm.Alive req := fun req =>
    hmajorStart req.clearVersion
  have hslash : ∀ req, slashForm.Alive req := fun req => (hversion req).lit _
  have huri : ∀ req, uriForm.Alive req := fun req =>
    (((((hslash req).lit _).lit _).lit _).lit _ |>.lit _).many _ _
  cases state with
  | methodStart => exact ((huri _).lit _).many1 htoken
  | method => exact ((huri req).lit _).many _ _
  | uri => exact huri req
  | httpVersionH => exact (((hslash req).lit _).lit _).lit _ |>.lit _
  | httpVersionT1 => exact ((hslash req).lit _).lit _ |>.lit _
  | httpVersionT2 => exact ((hslash req).lit _).lit _
  | httpVersionP => exact (hslash req).lit _
  | httpVersionSlash => exact hslash req
  | httpVersionMajorStart => exact hmajorStart req
  | httpVersionMajor => exact ((hminorStart req).lit _).many _ _
  | httpVersionMinorStart => exact hminorStart req
  | httpVersionMinor => exact ((hnewline req).lit _).many _ _
  | expectingNewline1 => exact hnewline req
  | headerLineStart => exact alive_lines req
  | headerLws =>
      obtain ⟨word, final, hword⟩ := (hnewline req).lit (chr '\r')
      refine ⟨word, final, [], word, by simp, rfl, ?_, [], word, by simp, rfl, hword⟩
      obtain ⟨_, rfl, -⟩ := hword
      intro c hc
      rw [List.head?_cons, Option.mem_some_iff] at hc
      rw [← hc]
      decide
  | headerName => exact (((hvalue req).lit _).lit _).many _ _
  | spaceBeforeHeaderValue => exact (hvalue req).lit _
  | headerValue => exact hvalue req
  | expectingNewline2 => exact hnewline req
  | expectingNewline3 => exact ⟨[chr '\n'], req, [], rfl, rfl, rfl⟩

theorem not_formAt_nil (state : State) (req final : Request) :
    ¬formAt state req [] final := by
  have hlines : ¬lines req [] final := by
    rintro ⟨continuations, fields, -, hword, -⟩
    simp [crlf] at hword
  cases state <;>
    simp [formAt, uriForm, slashForm, majorStartForm, majorForm, minorStartForm,
      minorForm, newlineForm, hlines, lwsForm, nameForm, spaceForm, valueForm]

def StartedAt (parser : State × Request) : Prop :=
  Started parser.1 parser.2

theorem derives_verdict :
    Derives verdict StartedAt fun parser => formAt parser.1 parser.2 where
  not_nil := fun _ => not_formAt_nil _ _ _
  alive := fun _ => alive_formAt _ _
  accept := by
    intro parser c result hstarted hverdict
    obtain ⟨state', req', kind, hconsume, hkind⟩ := takes_consume hstarted c
    unfold verdict at hverdict
    rw [hconsume] at hverdict
    cases kind with
    | good =>
        cases hverdict
        exact hkind
    | bad => cases hverdict
    | indeterminate => cases hverdict
  reject := by
    intro parser c hstarted hverdict
    obtain ⟨state', req', kind, hconsume, hkind⟩ := takes_consume hstarted c
    unfold verdict at hverdict
    rw [hconsume] at hverdict
    cases kind with
    | good => cases hverdict
    | bad => exact hkind
    | indeterminate => cases hverdict
  next := by
    intro parser c parser' hstarted hverdict
    obtain ⟨state', req', kind, hconsume, hkind⟩ := takes_consume hstarted c
    unfold verdict at hverdict
    rw [hconsume] at hverdict
    cases kind with
    | good => cases hverdict
    | bad => cases hverdict
    | indeterminate =>
        cases hverdict
        exact hkind

def Parsed.toScan (parsed : Parsed) : Scan (State × Request) Char8 Request :=
  match parsed.result with
  | .good => .accepted parsed.request parsed.unread
  | .bad => .rejected parsed.unread
  | .indeterminate => .unfinished (parsed.state, parsed.request)

/-- Parsing never asks for the last of no headers, and it ends as the
recognizer does. -/
theorem parse_eq_scan {state : State} {req : Request}
    (hstarted : Started state req) (input : List Char8) :
    ∃ parsed, parse state req input = some parsed ∧
      scan verdict (state, req) input = parsed.toScan ∧
      (parsed.result = .indeterminate → Started parsed.state parsed.request) := by
  induction input generalizing state req with
  | nil => exact ⟨_, rfl, rfl, fun _ => hstarted⟩
  | cons c rest ih =>
      obtain ⟨state', req', kind, hconsume, hkind⟩ := takes_consume hstarted c
      unfold parse scan verdict
      rw [hconsume]
      cases kind with
      | good => exact ⟨_, rfl, rfl, by simp⟩
      | bad => exact ⟨_, rfl, rfl, by simp⟩
      | indeterminate => exact ih hkind.1

theorem readChunks_eq_scan {state : State} {req : Request}
    (hstarted : Started state req) (chunks : List (List Char8)) :
    ∃ parsed, readChunks state req chunks = some parsed ∧
      scan verdict (state, req) chunks.flatten = parsed.toScan := by
  induction chunks generalizing state req with
  | nil => exact ⟨_, rfl, rfl⟩
  | cons chunk chunks ih =>
      obtain ⟨parsed, hparse, hscan, hnext⟩ := parse_eq_scan hstarted chunk
      rw [List.flatten_cons, scan_append, hscan]
      unfold readChunks Parsed.toScan
      rw [hparse]
      cases hresult : parsed.result with
      | good => exact ⟨_, by simp [hresult]; rfl, by simp [Scan.continue]⟩
      | bad => exact ⟨_, by simp [hresult]; rfl, by simp [Scan.continue]⟩
      | indeterminate =>
          obtain ⟨parsed', hread, hscan'⟩ := ih (hnext hresult)
          exact ⟨parsed', by simpa [hresult] using hread, hscan'⟩

/-! ## Whole requests -/

theorem foldl_pushMethod (text : List Char8) (req : Request) :
    text.foldl Request.pushMethod req =
      { req with method := req.method ++ text } := by
  induction text generalizing req with
  | nil => simp
  | cons c text ih => simp [ih, Request.pushMethod]

theorem foldl_pushUri (text : List Char8) (req : Request) :
    text.foldl Request.pushUri req = { req with uri := req.uri ++ text } := by
  induction text generalizing req with
  | nil => simp
  | cons c text ih => simp [ih, Request.pushUri]

theorem foldl_pushMajor (text : List Char8) (req : Request) :
    text.foldl Request.pushMajor req =
      { req with
        httpVersionMajor :=
          text.foldl Request.pushDigit req.httpVersionMajor } := by
  induction text generalizing req with
  | nil => rfl
  | cons c text ih => simp [ih, Request.pushMajor]

theorem foldl_pushMinor (text : List Char8) (req : Request) :
    text.foldl Request.pushMinor req =
      { req with
        httpVersionMinor :=
          text.foldl Request.pushDigit req.httpVersionMinor } := by
  induction text generalizing req with
  | nil => rfl
  | cons c text ih => simp [ih, Request.pushMinor]

/-- The request line read into a new request. -/
theorem foldl_requestLine (major minor : ℤ) (method uri majors minors : List Char8) :
    minors.foldl Request.pushMinor (majors.foldl Request.pushMajor
        (uri.foldl Request.pushUri (method.foldl Request.pushMethod
          (Request.fresh major minor))).clearVersion) =
      ⟨method, uri, number majors, number minors, []⟩ := by
  rw [foldl_pushMinor, foldl_pushMajor, foldl_pushUri, foldl_pushMethod]
  simp [Request.fresh, Request.clearVersion, number]

theorem formAt_methodStart_iff (major minor : ℤ) (word : List Char8)
    (final : Request) :
    formAt .methodStart (Request.fresh major minor) word final ↔
      ∃ message : Message, message.chars = word ∧ message.request = final := by
  constructor
  · intro hform
    obtain ⟨method, _, hmethod, htoken, rfl, _, rfl, uri, _, huri, rfl, _, rfl,
      hversion⟩ := Form.many1_iff.mp hform
    obtain ⟨_, rfl, _, rfl, _, rfl, _, rfl, _, rfl, hmajor⟩ := hversion
    obtain ⟨majors, _, hmajors, hdigits, rfl, _, rfl, hminor⟩ :=
      Form.many1_iff.mp hmajor
    obtain ⟨minors, _, hminors, hdigits', rfl, _, rfl, rest, rfl, hlines⟩ :=
      Form.many1_iff.mp hminor
    rw [foldl_requestLine] at hlines
    obtain ⟨continuations, fields, hnone, rfl, rfl⟩ := hlines
    rw [hnone rfl]
    exact ⟨⟨method, uri, majors, minors, fields, hmethod, htoken, huri, hmajors,
      hdigits, hminors, hdigits'⟩, by simp [Message.chars, crlf], rfl⟩
  · rintro ⟨message, rfl, rfl⟩
    apply Form.many1_iff.mpr
    refine ⟨message.method, _, message.method_ne, message.isToken,
      by simp only [Message.chars, List.append_assoc]; rfl, _, rfl, message.uri, _,
      message.isUriChar, rfl, _, rfl, _, rfl, _, rfl, _, rfl, _, rfl, _, rfl, ?_⟩
    apply Form.many1_iff.mpr
    refine ⟨message.major, _, message.major_ne, message.majorDigits, rfl, _, rfl, ?_⟩
    apply Form.many1_iff.mpr
    refine ⟨message.minor, _, message.minor_ne, message.minorDigits, rfl, _, rfl,
      _, rfl, ?_⟩
    rw [foldl_requestLine]
    exact ⟨[], message.fields, fun _ => rfl, rfl, rfl⟩

theorem viable_methodStart_iff (major minor : ℤ) (word : List Char8) :
    Viable (formAt .methodStart (Request.fresh major minor)) word ↔
      ∃ message : Message, word <+: message.chars := by
  simp only [Viable, formAt_methodStart_iff]
  constructor
  · rintro ⟨more, final, message, hchars, -⟩
    exact ⟨message, more, hchars.symm⟩
  · rintro ⟨message, more, hmore⟩
    exact ⟨more, message.request, message, hmore.symm, rfl⟩

theorem begins_methodStart_iff (major minor : ℤ) (word : List Char8) :
    Begins (formAt .methodStart (Request.fresh major minor)) word ↔
      ∃ message : Message, word <+: message.chars ∧ word ≠ message.chars := by
  simp only [Begins, formAt_methodStart_iff]
  constructor
  · rintro ⟨more, final, hmore, message, hchars, -⟩
    refine ⟨message, ⟨more, hchars.symm⟩, fun hword => ?_⟩
    rw [hchars, List.self_eq_append_right] at hword
    exact hmore hword
  · rintro ⟨message, ⟨more, hmore⟩, hne⟩
    refine ⟨more, message.request, ?_, message, hmore.symm, rfl⟩
    rintro rfl
    exact hne (by rw [← hmore, List.append_nil])

/-- In whatever chunks the input arrives, the parser returns good after exactly
a message of the grammar, with its request, and bad at the first character after
which no message can follow.  It never asks for the last of no headers. -/
theorem readChunks_spec (major minor : ℤ) (chunks : List (List Char8)) :
    ∃ parsed,
      readChunks .methodStart (Request.fresh major minor) chunks = some parsed ∧
      (∀ word unread, word ++ unread = chunks.flatten →
        ((parsed.result = .good ∧ parsed.unread = unread ↔
            ∃ message : Message, message.chars = word) ∧
          (parsed.result = .good → parsed.unread = unread →
            ∀ message : Message, message.chars = word →
              parsed.request = message.request))) ∧
      (∀ word c unread, word ++ c :: unread = chunks.flatten →
        (parsed.result = .bad ∧ parsed.unread = unread ↔
          (∃ message : Message, word <+: message.chars ∧ word ≠ message.chars) ∧
            ¬∃ message : Message, word ++ [c] <+: message.chars)) ∧
      (parsed.result = .indeterminate ↔
        ∃ message : Message, chunks.flatten <+: message.chars ∧
          chunks.flatten ≠ message.chars) := by
  have hstarted : Started .methodStart (Request.fresh major minor) := by
    simp [Started]
  obtain ⟨parsed, hparsed, hscan⟩ := readChunks_eq_scan hstarted chunks
  have hstart : StartedAt (.methodStart, Request.fresh major minor) := hstarted
  have haccepted := derives_verdict.scan_accepted_iff hstart chunks.flatten
  have hrejected := derives_verdict.scan_rejected_iff hstart chunks.flatten
  have hunfinished := derives_verdict.scan_unfinished_iff hstart chunks.flatten
  simp only [hscan, formAt_methodStart_iff, viable_methodStart_iff,
    begins_methodStart_iff] at haccepted hrejected hunfinished
  refine ⟨parsed, hparsed, ?_, ?_, ?_⟩
  · intro word unread hinput
    have hword : ∀ final, parsed.toScan = .accepted final unread ↔
        ∃ message : Message, message.chars = word ∧ message.request = final := by
      intro final
      rw [haccepted, ← hinput]
      simp only [List.append_cancel_right_eq]
      constructor
      · rintro ⟨_, rfl, hmessage⟩
        exact hmessage
      · exact fun hmessage => ⟨word, rfl, hmessage⟩
    have hgood : ∀ final, parsed.toScan = .accepted final unread ↔
        (parsed.result = .good ∧ parsed.unread = unread) ∧
          parsed.request = final := by
      intro final
      unfold Parsed.toScan
      cases parsed.result <;> simp [and_comm]
    simp only [hgood] at hword
    refine ⟨⟨?_, ?_⟩, ?_⟩
    · intro h
      obtain ⟨message, hchars, -⟩ := (hword parsed.request).mp ⟨h, rfl⟩
      exact ⟨message, hchars⟩
    · rintro ⟨message, hchars⟩
      exact ((hword message.request).mpr ⟨message, hchars, rfl⟩).1
    · intro hresult hunread message hchars
      exact ((hword message.request).mpr ⟨message, hchars, rfl⟩).2
  · intro word c unread hinput
    have hbad : parsed.toScan = .rejected unread ↔
        parsed.result = .bad ∧ parsed.unread = unread := by
      unfold Parsed.toScan
      cases parsed.result <;> simp
    rw [← hbad, hrejected, ← hinput]
    constructor
    · rintro ⟨word', c', heq, hbegins, hviable⟩
      obtain ⟨rfl, htail⟩ := List.append_inj' heq rfl
      obtain ⟨rfl, -⟩ := List.cons.inj htail
      exact ⟨hbegins, hviable⟩
    · exact fun h => ⟨word, c, rfl, h⟩
  · rw [← hunfinished]
    unfold Parsed.toScan
    cases parsed.result <;> simp

end SensorHub.Http
