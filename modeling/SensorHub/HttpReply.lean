import SensorHub.HttpParser

/-!
# Replies of the HTTP server

A reply has a status, headers and a content, and it is sent as the buffers of
its status line, its headers and its content.  A client reads the status line,
the headers up to an empty line and as much content as the headers announce.
-/

namespace SensorHub.Http

/-- The characters of a text constant. -/
def text (constant : String) : List Char8 :=
  constant.toList.map chr

/-- `std::to_string` of a size. -/
def sizeText (size : ℕ) : List Char8 :=
  (Nat.repr size).toList.map chr

inductive StatusType where
  | ok
  | created
  | accepted
  | noContent
  | multipleChoices
  | movedPermanently
  | movedTemporarily
  | notModified
  | badRequest
  | unauthorized
  | forbidden
  | notFound
  | internalServerError
  | notImplemented
  | badGateway
  | serviceUnavailable
  deriving DecidableEq, Repr

/-- The value of the enumeration. -/
def StatusType.code : StatusType → ℕ
  | .ok => 200
  | .created => 201
  | .accepted => 202
  | .noContent => 204
  | .multipleChoices => 300
  | .movedPermanently => 301
  | .movedTemporarily => 302
  | .notModified => 304
  | .badRequest => 400
  | .unauthorized => 401
  | .forbidden => 403
  | .notFound => 404
  | .internalServerError => 500
  | .notImplemented => 501
  | .badGateway => 502
  | .serviceUnavailable => 503

structure Reply where
  status : StatusType
  headers : List Header
  content : List Char8
  deriving DecidableEq, Repr

/-- `status_strings` -/
def statusString : StatusType → String
  | .ok => "HTTP/1.0 200 OK\r\n"
  | .created => "HTTP/1.0 201 Created\r\n"
  | .accepted => "HTTP/1.0 202 Accepted\r\n"
  | .noContent => "HTTP/1.0 204 No Content\r\n"
  | .multipleChoices => "HTTP/1.0 300 Multiple Choices\r\n"
  | .movedPermanently => "HTTP/1.0 301 Moved Permanently\r\n"
  | .movedTemporarily => "HTTP/1.0 302 Moved Temporarily\r\n"
  | .notModified => "HTTP/1.0 304 Not Modified\r\n"
  | .badRequest => "HTTP/1.0 400 Bad Request\r\n"
  | .unauthorized => "HTTP/1.0 401 Unauthorized\r\n"
  | .forbidden => "HTTP/1.0 403 Forbidden\r\n"
  | .notFound => "HTTP/1.0 404 Not Found\r\n"
  | .internalServerError => "HTTP/1.0 500 Internal Server Error\r\n"
  | .notImplemented => "HTTP/1.0 501 Not Implemented\r\n"
  | .badGateway => "HTTP/1.0 502 Bad Gateway\r\n"
  | .serviceUnavailable => "HTTP/1.0 503 Service Unavailable\r\n"

def nameValueSeparator : List Char8 :=
  [chr ':', chr ' ']

def crlfBuffer : List Char8 :=
  [chr '\r', chr '\n']

namespace Reply

def headerBuffers (header : Header) : List (List Char8) :=
  [header.name, nameValueSeparator, header.value, crlfBuffer]

def toBuffers (reply : Reply) : List (List Char8) :=
  text (statusString reply.status) :: reply.headers.flatMap headerBuffers ++
    [crlfBuffer, reply.content]

/-- What is written to the socket. -/
def bytes (reply : Reply) : List Char8 :=
  reply.toBuffers.flatten

end Reply

/-! ## Stock replies -/

structure StatusReply where
  code : ℕ
  msg : String

/-- `stock_replies`, all but `ok` -/
def statusReply : StatusType → StatusReply
  | .ok => ⟨500, "Internal Server Error"⟩
  | .created => ⟨201, "Created"⟩
  | .accepted => ⟨202, "Accepted"⟩
  | .noContent => ⟨204, "No Content"⟩
  | .multipleChoices => ⟨300, "Multiple Choices"⟩
  | .movedPermanently => ⟨301, "Moved Permanently"⟩
  | .movedTemporarily => ⟨302, "Moved Temporarily"⟩
  | .notModified => ⟨304, "Not Modified"⟩
  | .badRequest => ⟨400, "Bad Request"⟩
  | .unauthorized => ⟨401, "Unauthorized"⟩
  | .forbidden => ⟨403, "Forbidden"⟩
  | .notFound => ⟨404, "Not Found"⟩
  | .internalServerError => ⟨500, "Internal Server Error"⟩
  | .notImplemented => ⟨501, "Not Implemented"⟩
  | .badGateway => ⟨502, "Bad Gateway"⟩
  | .serviceUnavailable => ⟨503, "Service Unavailable"⟩

def toHtml (statusReply : StatusReply) : List Char8 :=
  text "<html><head><title>" ++ text statusReply.msg ++
    text "</title></head><body><h1>" ++ sizeText statusReply.code ++ text " " ++
    text statusReply.msg ++ text "</h1></body></html>"

/-- `stock_replies::to_string` -/
def stockContent (status : StatusType) : List Char8 :=
  if status = .ok then [] else toHtml (statusReply status)

def Reply.stockReply (status : StatusType) : Reply where
  status := status
  headers :=
    [⟨text "Content-Length", sizeText (stockContent status).length⟩,
      ⟨text "Content-Type", text "text/html"⟩]
  content := stockContent status

/-! ## The reader of a client -/

/-- A line and what comes after it. -/
def takeLine : List Char8 → Option (List Char8 × List Char8)
  | [] => none
  | [_] => none
  | first :: second :: rest =>
      if first = chr '\r' ∧ second = chr '\n' then
        some ([], rest)
      else
        (takeLine (second :: rest)).map fun (line, after) => (first :: line, after)

def readHeader (line : List Char8) : Option Header :=
  match line.dropWhile (· ≠ chr ':') with
  | colon :: space :: value =>
      if colon = chr ':' ∧ space = chr ' ' then
        some ⟨line.takeWhile (· ≠ chr ':'), value⟩
      else
        none
  | _ => none

/-- At most `count` headers up to an empty line. -/
def readHeaders : ℕ → List Char8 → Option (List Header × List Char8)
  | 0, _ => none
  | count + 1, input =>
      (takeLine input).bind fun (line, rest) =>
        if line = [] then
          some ([], rest)
        else
          (readHeader line).bind fun header =>
            (readHeaders count rest).map fun (headers, after) =>
              (header :: headers, after)

def readSize (digits : List Char8) : Option ℕ :=
  if digits ≠ [] ∧ digits.all isDigit then
    some (digits.foldl
      (fun number c => 10 * number + (c.toInt - (chr '0').toInt).toNat) 0)
  else
    none

def contentLength (headers : List Header) : Option ℕ :=
  (headers.find? fun header => header.name = text "Content-Length").bind
    fun header => readSize header.value

/-- What a client takes for a reply. -/
structure ReadReply where
  code : ℕ
  headers : List Header
  content : List Char8
  deriving DecidableEq, Repr

/-- A reply at the start of the input, and what comes after it. -/
def readReply (input : List Char8) : Option (ReadReply × List Char8) :=
  (takeLine input).bind fun (status, rest) =>
    (readSize ((status.drop 9).take 3)).bind fun code =>
      (readHeaders input.length rest).bind fun (headers, rest') =>
        (contentLength headers).bind fun length =>
          if length ≤ rest'.length then
            some (⟨code, headers, rest'.take length⟩, rest'.drop length)
          else
            none

/-! ## Reading back -/

/-- The headers begin with the size of the content, and they fit on their
lines. -/
structure Reply.Framed (reply : Reply) : Prop where
  length : reply.headers.head? =
    some ⟨text "Content-Length", sizeText reply.content.length⟩
  names : ∀ header ∈ reply.headers, chr ':' ∉ header.name ∧ chr '\r' ∉ header.name
  values : ∀ header ∈ reply.headers, chr '\r' ∉ header.value

theorem toInt_chr {c : Char} (hc : c.isDigit = true) : (chr c).toInt = c.toNat := by
  have hbounds : 48 ≤ c.toNat ∧ c.toNat ≤ 57 := by
    simpa [Char.isDigit, UInt32.le_iff_toNat_le] using hc
  have hsmall : (c.toNat : ℤ) < 2 ^ 7 := by omega
  unfold chr
  rw [Int8.toInt_ofNat_of_lt (by omega)]

theorem isDigit_chr {c : Char} (hc : c.isDigit = true) : isDigit (chr c) = true := by
  have hbounds : 48 ≤ c.toNat ∧ c.toNat ≤ 57 := by
    simpa [Char.isDigit, UInt32.le_iff_toNat_le] using hc
  have hzero : (chr '0').toInt = 48 := by decide
  have hnine : (chr '9').toInt = 57 := by decide
  simp only [isDigit, toInt_chr hc, hzero, hnine]
  simp only [decide_eq_true_eq]
  omega

theorem isDigit_of_mem_sizeText {size : ℕ} {c : Char8} (hc : c ∈ sizeText size) :
    isDigit c = true := by
  obtain ⟨digit, hdigit, rfl⟩ := List.mem_map.mp hc
  rw [Nat.toList_repr] at hdigit
  exact isDigit_chr (Nat.isDigit_of_mem_toDigits (by omega) (by omega) hdigit)

theorem foldl_chr {digits : List Char} (hdigits : ∀ c ∈ digits, c.isDigit = true)
    (start : ℕ) :
    (digits.map chr).foldl
        (fun number c => 10 * number + (c.toInt - (chr '0').toInt).toNat) start =
      Nat.ofDigitChars 10 digits start := by
  have hzero : (chr '0').toInt = 48 := by decide
  induction digits generalizing start with
  | nil => rfl
  | cons c digits ih =>
      have hc := hdigits c List.mem_cons_self
      have hstep : ((c.toNat : ℤ) - 48).toNat = c.toNat - '0'.toNat := by
        have hchar : '0'.toNat = 48 := rfl
        omega
      rw [List.map_cons, List.foldl_cons, ih fun d hd => hdigits d (List.mem_cons_of_mem _ hd),
        toInt_chr hc, hzero, hstep, Nat.ofDigitChars_cons]

theorem readSize_sizeText (size : ℕ) : readSize (sizeText size) = some size := by
  have hne : sizeText size ≠ [] := by
    simp [sizeText, Nat.toList_repr, Nat.toDigits_ne_nil]
  have hall : (sizeText size).all isDigit = true :=
    List.all_eq_true.mpr fun _ hc => isDigit_of_mem_sizeText hc
  have hdigits : ∀ c ∈ (Nat.repr size).toList, c.isDigit = true := by
    intro c hc
    rw [Nat.toList_repr] at hc
    exact Nat.isDigit_of_mem_toDigits (by omega) (by omega) hc
  rw [readSize, if_pos ⟨hne, hall⟩, sizeText, foldl_chr hdigits, Nat.toList_repr,
    Nat.ofDigitChars_ten_toDigits]

theorem takeLine_crlf {line : List Char8} (hline : chr '\r' ∉ line) (rest : List Char8) :
    takeLine (line ++ crlfBuffer ++ rest) = some (line, rest) := by
  induction line with
  | nil => simp [crlfBuffer, takeLine]
  | cons c line ih =>
      have hc : c ≠ chr '\r' := fun h => hline (h ▸ List.mem_cons_self)
      have htail := ih fun h => hline (List.mem_cons_of_mem _ h)
      cases line with
      | nil =>
          simp only [crlfBuffer, List.nil_append, List.cons_append] at htail ⊢
          rw [takeLine, if_neg fun h => hc h.1, htail]
          rfl
      | cons d line =>
          simp only [List.cons_append] at htail ⊢
          rw [takeLine, if_neg fun h => hc h.1, htail]
          rfl

theorem readHeader_buffers {header : Header} (hname : chr ':' ∉ header.name) :
    readHeader (header.name ++ nameValueSeparator ++ header.value) = some header := by
  have hall : ∀ c ∈ header.name, decide (c ≠ chr ':') = true := by
    intro c hc
    simp only [ne_eq, decide_not, Bool.not_eq_true', decide_eq_false_iff_not]
    exact fun h => hname (h ▸ hc)
  have hdrop : (header.name ++ nameValueSeparator ++ header.value).dropWhile
      (· ≠ chr ':') = chr ':' :: chr ' ' :: header.value := by
    rw [List.append_assoc, List.dropWhile_append_of_pos hall]
    simp [nameValueSeparator]
  have htake : (header.name ++ nameValueSeparator ++ header.value).takeWhile
      (· ≠ chr ':') = header.name := by
    rw [List.append_assoc, List.takeWhile_append_of_pos hall]
    simp [nameValueSeparator]
  unfold readHeader
  rw [hdrop, htake]
  simp

theorem readHeaders_buffers {headers : List Header}
    (hnames : ∀ header ∈ headers, chr ':' ∉ header.name ∧ chr '\r' ∉ header.name)
    (hvalues : ∀ header ∈ headers, chr '\r' ∉ header.value) {count : ℕ}
    (hcount : headers.length < count) (rest : List Char8) :
    readHeaders count
        ((headers.flatMap Reply.headerBuffers).flatten ++ crlfBuffer ++ rest) =
      some (headers, rest) := by
  induction headers generalizing count with
  | nil =>
      obtain ⟨count, rfl⟩ := Nat.exists_eq_succ_of_ne_zero (Nat.ne_of_gt hcount)
      have hline : takeLine ([] ++ crlfBuffer ++ rest) = some ([], rest) :=
        takeLine_crlf (by simp) rest
      simp only [List.flatMap_nil, List.flatten_nil, readHeaders, hline]
      rfl
  | cons header headers ih =>
      obtain ⟨count, rfl⟩ :=
        Nat.exists_eq_succ_of_ne_zero (Nat.ne_of_gt (Nat.zero_lt_of_lt hcount))
      have hname := hnames header List.mem_cons_self
      have hvalue := hvalues header List.mem_cons_self
      have hreturn : chr '\r' ∉ header.name ++ nameValueSeparator ++ header.value := by
        have hseparator : chr '\r' ∉ nameValueSeparator := by decide
        simp only [List.mem_append, not_or]
        exact ⟨⟨hname.2, hseparator⟩, hvalue⟩
      have hne : header.name ++ nameValueSeparator ++ header.value ≠ [] := by
        simp [nameValueSeparator]
      have htail := ih (fun h hh => hnames h (List.mem_cons_of_mem _ hh))
        (fun h hh => hvalues h (List.mem_cons_of_mem _ hh))
        (by simpa using hcount : headers.length < count)
      have hsplit :
          ((header :: headers).flatMap Reply.headerBuffers).flatten ++ crlfBuffer ++ rest =
            header.name ++ nameValueSeparator ++ header.value ++ crlfBuffer ++
              ((headers.flatMap Reply.headerBuffers).flatten ++ crlfBuffer ++ rest) := by
        simp [Reply.headerBuffers]
      rw [hsplit, readHeaders, takeLine_crlf hreturn]
      simp only [Option.bind_some, if_neg hne, readHeader_buffers hname.1, htail,
        Option.map_some]

theorem contentLength_of_head {headers : List Header} {size : ℕ}
    (hhead : headers.head? = some ⟨text "Content-Length", sizeText size⟩) :
    contentLength headers = some size := by
  obtain ⟨more, rfl⟩ := List.head?_eq_some_iff.mp hhead
  simp [contentLength, readSize_sizeText]

/-- Every status string is a line with the code of the status behind the name
of the protocol. -/
theorem statusString_line (status : StatusType) :
    ∃ line, text (statusString status) = line ++ crlfBuffer ∧ chr '\r' ∉ line ∧
      readSize ((line.drop 9).take 3) = some status.code := by
  refine ⟨(text (statusString status)).dropLast.dropLast, ?_⟩
  cases status <;> decide

theorem length_headers_le (headers : List Header) :
    headers.length ≤ (headers.flatMap Reply.headerBuffers).flatten.length := by
  induction headers with
  | nil => rfl
  | cons header headers ih =>
      simp only [List.flatMap_cons, List.flatten_append, List.length_append,
        List.length_cons, Reply.headerBuffers, List.flatten_cons, nameValueSeparator]
      omega

/-- A client reads a framed reply back, whatever comes after it. -/
theorem Reply.Framed.readReply_bytes {reply : Reply} (hframed : reply.Framed)
    (more : List Char8) :
    readReply (reply.bytes ++ more) =
      some (⟨reply.status.code, reply.headers, reply.content⟩, more) := by
  obtain ⟨line, hstatus, hreturn, hcode⟩ := statusString_line reply.status
  have hbytes : reply.bytes ++ more = line ++ crlfBuffer ++
      ((reply.headers.flatMap Reply.headerBuffers).flatten ++ crlfBuffer ++
        (reply.content ++ more)) := by
    simp [Reply.bytes, Reply.toBuffers, hstatus]
  have hcount : reply.headers.length < (reply.bytes ++ more).length := by
    have hle := length_headers_le reply.headers
    rw [hbytes]
    simp only [List.length_append, crlfBuffer, List.length_cons, List.length_nil]
    omega
  have hheaders := readHeaders_buffers hframed.names hframed.values hcount
    (reply.content ++ more)
  unfold readReply
  rw [hbytes] at hheaders ⊢
  rw [takeLine_crlf hreturn]
  simp only [Option.bind_some, hcode, hheaders, contentLength_of_head hframed.length]
  rw [if_pos (by simp), List.take_left, List.drop_left]

end SensorHub.Http
