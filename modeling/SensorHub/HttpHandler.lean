import SensorHub.HttpReply
import SensorHub.UrlDecode

/-!
# Answers to HTTP requests

`Request_handler::handle_request` decodes the path of a request and answers with
a page about the devices and processors as they are at that moment: the home
page, the values of one device or those of one processor.  A page names a device
by its number in the list, its id or its name, and where several devices fit the
last one is shown.
-/

namespace SensorHub.Http

/-! ## What the handler sees -/

structure SiteDevice where
  name : List Char8
  id : List Char8
  isConnected : Bool
  /-- Text of `get_device_json` -/
  json : List Char8
  deriving DecidableEq, Repr

structure SiteProcessor where
  name : List Char8
  /-- Text of `get_json` -/
  json : List Char8
  deriving DecidableEq, Repr

structure Site where
  devices : List SiteDevice
  processors : List SiteProcessor
  css : List Char8
  /-- Constants of the build -/
  icon : List Char8
  version : List Char8
  gitrev : List Char8

/-! ## Pages -/

def deviceLink (i : ℕ) (device : SiteDevice) : List Char8 :=
  text "<a href=\"/devices/" ++ sizeText i ++ text "\">" ++ device.name ++ text ", " ++
    device.id ++ text "</a>"

def deviceItem (i : ℕ) (device : SiteDevice) : List Char8 :=
  if device.isConnected then
    text "<li class=\"device_connected\">" ++ deviceLink i device ++ text ": connected"
  else
    text "<li class=\"device_disconnected\">" ++ device.name ++ text ": Not connected."

def processorLink (i : ℕ) (processor : SiteProcessor) : List Char8 :=
  text "<a href=\"/processors/" ++ sizeText i ++ text "\">" ++ processor.name ++ text "</a>"

def processorItem (i : ℕ) (processor : SiteProcessor) : List Char8 :=
  text "<li class=\"processor\">" ++ processorLink i processor

/-- The items of a list on the home page, from the entry with number `i` on. -/
def listItems {α : Type} (item : ℕ → α → List Char8) : ℕ → List α → List Char8
  | _, [] => []
  | i, entry :: entries => item i entry ++ listItems item (i + 1) entries

namespace Site

def home (site : Site) : List Char8 :=
  text "<h1>Damen Sensor Hub</h1>\n<h2>Configured devices:</h2>\n<ul>" ++
    listItems deviceItem 0 site.devices ++
    text "</ul><h2>Active processors:</h2>\n<ul>" ++
    listItems processorItem 0 site.processors ++
    text "</ul><hr><p class=\"attribution\">Version: " ++ site.version ++
    text " built from revision: " ++ site.gitrev ++
    text ". Written by <a href=\"mailto:jaap.versteegh@damen.com?subject=Damen Sensor Hub\">" ++
    text "Jaap Versteegh</a>"

def html (site : Site) (body : List Char8) : List Char8 :=
  text "<html>\n<head>\n<meta http-equiv=\"refresh\" content=\"10\">\n" ++
    text "<title>Damen Sensor Hub</title>\n<style>" ++ site.css ++
    text "</style>\n<link href=\"data:image/x-icon;base64," ++ site.icon ++
    text "\" rel=\"icon\" type=\"image/x-icon\"></head>\n<body>" ++ body ++
    text "</body>\n</html>\n"

end Site

/-- The content after a loop in which every entry that fits overwrites it, from the
entry with number `i` on. -/
def lastShown {α : Type} (fits : ℕ → α → Bool) (json : α → List Char8) :
    ℕ → List Char8 → List α → List Char8
  | _, content, [] => content
  | i, content, entry :: entries =>
      lastShown fits json (i + 1) (if fits i entry then json entry else content) entries

def deviceFits (id : List Char8) (i : ℕ) (device : SiteDevice) : Bool :=
  sizeText i = id || device.id = id || device.name = id

def processorFits (id : List Char8) (i : ℕ) (processor : SiteProcessor) : Bool :=
  sizeText i = id || processor.name = id

/-- The type of the content, empty when there is no such page, and the content. -/
def getContent (site : Site) (path : List Char8) : List Char8 × List Char8 :=
  if path = text "/" then
    (text "text/html", site.html site.home)
  else if path.take 9 = text "/devices/" then
    (text "application/json",
      lastShown (deviceFits ((path.drop 9).take 32)) SiteDevice.json 0 (text "{}")
        site.devices)
  else if path.take 12 = text "/processors/" then
    (text "application/json",
      lastShown (processorFits ((path.drop 12).take 32)) SiteProcessor.json 0 (text "{}")
        site.processors)
  else
    ([], [])

/-! ## Requests -/

/-- The reply of a new connection; its status is not initialised. -/
def Reply.fresh (status : StatusType) : Reply :=
  ⟨status, [], []⟩

def handleRequest (site : Site) (req : Request) (reply : Reply) : Reply :=
  let (decoded, requestPath) := urlDecode req.uri
  if !decoded then
    Reply.stockReply .badRequest
  else if requestPath = [] ∨ requestPath.head? ≠ some (chr '/') ∨
      text ".." <:+: requestPath then
    Reply.stockReply .badRequest
  else
    let (contentType, content) := getContent site requestPath
    if contentType ≠ [] then
      let content := reply.content ++ content
      { status := .ok
        headers :=
          [⟨text "Content-Length", sizeText content.length⟩,
            ⟨text "Content-Type", contentType⟩,
            ⟨text "Access-Control-Allow-Origin", text "*"⟩]
        content := content }
    else
      Reply.stockReply .notFound

/-! ## Every answer can be read back -/

theorem not_mem_sizeText {c : Char8} (hc : isDigit c = false) (size : ℕ) :
    c ∉ sizeText size := by
  intro hmem
  rw [isDigit_of_mem_sizeText hmem] at hc
  cases hc

theorem headerNames_fit : ∀ name ∈ [text "Content-Length", text "Content-Type",
    text "Access-Control-Allow-Origin"], chr ':' ∉ name ∧ chr '\r' ∉ name := by
  decide

theorem framed_stockReply (status : StatusType) : (Reply.stockReply status).Framed where
  length := rfl
  names := by
    intro header hheader
    simp only [Reply.stockReply, List.mem_cons, List.not_mem_nil, or_false] at hheader
    rcases hheader with rfl | rfl <;> exact headerNames_fit _ (by simp)
  values := by
    intro header hheader
    simp only [Reply.stockReply, List.mem_cons, List.not_mem_nil, or_false] at hheader
    rcases hheader with rfl | rfl
    · exact not_mem_sizeText (by decide) _
    · decide

theorem getContent_type (site : Site) (path : List Char8) :
    (getContent site path).1 = text "text/html" ∨
      (getContent site path).1 = text "application/json" ∨ (getContent site path).1 = [] := by
  unfold getContent
  split_ifs <;> simp

theorem framed_handleRequest (site : Site) (req : Request) (reply : Reply) :
    (handleRequest site req reply).Framed := by
  unfold handleRequest
  simp only
  split
  · exact framed_stockReply _
  · split
    · exact framed_stockReply _
    · split
      · refine ⟨rfl, ?_, ?_⟩
        · intro header hheader
          simp only [List.mem_cons, List.not_mem_nil, or_false] at hheader
          rcases hheader with rfl | rfl | rfl <;> exact headerNames_fit _ (by simp)
        · intro header hheader
          simp only [List.mem_cons, List.not_mem_nil, or_false] at hheader
          rcases hheader with rfl | rfl | rfl
          · exact not_mem_sizeText (by decide) _
          · rcases getContent_type site (urlDecode req.uri).2 with htype | htype | htype
            · rw [htype]
              decide
            · rw [htype]
              decide
            · rw [htype]
              simp
          · decide
      · exact framed_stockReply _

theorem status_handleRequest (site : Site) (req : Request) (reply : Reply) :
    (handleRequest site req reply).status ∈ [StatusType.ok, .badRequest, .notFound] := by
  unfold handleRequest
  simp only
  split
  · simp [Reply.stockReply]
  · split
    · simp [Reply.stockReply]
    · split
      · simp
      · simp [Reply.stockReply]

/-! ## Pages of single devices -/

section Lists

variable {α : Type}

theorem lastShown_of_none {fits : ℕ → α → Bool} {json : α → List Char8} {i : ℕ}
    {entries : List α}
    (hnone : ∀ k, (hk : k < entries.length) → fits (i + k) entries[k] = false)
    (content : List Char8) : lastShown fits json i content entries = content := by
  induction entries generalizing i with
  | nil => rfl
  | cons entry entries ih =>
      have hentry : fits i entry = false := hnone 0 (by simp)
      have htail : ∀ k, (hk : k < entries.length) → fits (i + 1 + k) entries[k] = false := by
        intro k hk
        have h := hnone (k + 1) (by simpa using hk)
        rwa [List.getElem_cons_succ, ← Nat.add_assoc, Nat.add_right_comm] at h
      rw [lastShown, hentry, if_neg (by simp), ih htail]

theorem lastShown_append (fits : ℕ → α → Bool) (json : α → List Char8) (i : ℕ)
    (content : List Char8) (before after : List α) :
    lastShown fits json i content (before ++ after) =
      lastShown fits json (i + before.length) (lastShown fits json i content before) after := by
  induction before generalizing i content with
  | nil => rfl
  | cons entry before ih =>
      rw [List.cons_append, lastShown, ih, lastShown, List.length_cons, Nat.add_right_comm,
        Nat.add_assoc]

/-- The last entry that fits is shown. -/
theorem lastShown_of_last {fits : ℕ → α → Bool} {json : α → List Char8} {entries : List α}
    {j : ℕ} (hj : j < entries.length) (hfits : fits j entries[j] = true)
    (hafter : ∀ k, j < k → (hk : k < entries.length) → fits k entries[k] = false)
    (content : List Char8) : lastShown fits json 0 content entries = json entries[j] := by
  have hsplit : entries = entries.take j ++ entries[j] :: entries.drop (j + 1) := by
    simp
  have hlength : (entries.take j).length = j := by
    simp [Nat.min_eq_left hj.le]
  have hnone : ∀ k, (hk : k < (entries.drop (j + 1)).length) →
      fits (j + 1 + k) (entries.drop (j + 1))[k] = false := by
    intro k hk
    rw [List.getElem_drop]
    exact hafter (j + 1 + k) (by omega) (by simp at hk; omega)
  calc lastShown fits json 0 content entries =
      lastShown fits json j (lastShown fits json 0 content (entries.take j))
        (entries[j] :: entries.drop (j + 1)) := by
        conv_lhs => rw [hsplit, lastShown_append, hlength, Nat.zero_add]
    _ = json entries[j] := by
        rw [lastShown, hfits, if_pos rfl, lastShown_of_none hnone]

theorem item_infix_listItems (item : ℕ → α → List Char8) (start : ℕ) {entries : List α}
    {i : ℕ} (hi : i < entries.length) :
    item (start + i) entries[i] <:+: listItems item start entries := by
  induction entries generalizing start i with
  | nil => cases hi
  | cons entry entries ih =>
      cases i with
      | zero => exact (List.prefix_append _ _).isInfix
      | succ i =>
          have h := ih (start + 1) (Nat.lt_of_succ_lt_succ hi)
          rw [Nat.add_right_comm, Nat.add_assoc] at h
          exact h.trans (List.suffix_append _ _).isInfix

end Lists

theorem sizeText_injective {size size' : ℕ} (h : sizeText size = sizeText size') :
    size = size' := by
  have hread := readSize_sizeText size
  rw [h, readSize_sizeText] at hread
  exact (Option.some.inj hread).symm

theorem length_sizeText_le {size : ℕ} (hsize : size < 10 ^ 32) : (sizeText size).length ≤ 32 := by
  rw [sizeText, List.length_map, Nat.toList_repr]
  exact (Nat.length_toDigits_le_iff (by omega) (by omega)).mpr hsize

theorem decodeInto_plain {path : List Char8} (hpath : ∀ c ∈ path, c ≠ chr '%' ∧ c ≠ chr '+')
    (before : List Char8) : decodeInto before path = (true, before ++ path) := by
  induction path generalizing before with
  | nil => simp [decodeInto]
  | cons c path ih =>
      have hc := hpath c List.mem_cons_self
      rw [decodeInto_other before path hc.1 hc.2,
        ih fun d hd => hpath d (List.mem_cons_of_mem _ hd),
        List.append_assoc]
      rfl

/-- Path of the page of a device -/
def devicePath (i : ℕ) : List Char8 :=
  text "/devices/" ++ sizeText i

theorem urlDecode_devicePath (i : ℕ) : urlDecode (devicePath i) = (true, devicePath i) := by
  refine decodeInto_plain ?_ []
  intro c hc
  rcases List.mem_append.mp hc with hc | hc
  · have hplain : ∀ d ∈ text "/devices/", d ≠ chr '%' ∧ d ≠ chr '+' := by
      decide +kernel
    exact hplain c hc
  · have hdigit := isDigit_of_mem_sizeText hc
    constructor <;> rintro rfl <;> revert hdigit <;> decide

theorem not_dots_infix_devicePath (i : ℕ) : ¬text ".." <:+: devicePath i := by
  intro hdots
  have hmem : chr '.' ∈ devicePath i := hdots.subset (by decide)
  rcases List.mem_append.mp hmem with hmem | hmem
  · revert hmem
    decide
  · exact not_mem_sizeText (by decide) i hmem

/-- The page of a device is the JSON text of the last device that fits its
number. -/
theorem handleRequest_devicePath (site : Site) {req : Request} {i : ℕ} (hi : i < 10 ^ 32)
    (huri : req.uri = devicePath i) (reply : Reply) (hreply : reply.content = []) :
    (handleRequest site req reply).status = .ok ∧
      (handleRequest site req reply).content =
        lastShown (deviceFits (sizeText i)) SiteDevice.json 0 (text "{}") site.devices := by
  have hhead : (devicePath i).head? = some (chr '/') := rfl
  have hne : devicePath i ≠ [] := by
    intro h
    rw [h] at hhead
    cases hhead
  have hsafe : ¬(devicePath i = [] ∨ (devicePath i).head? ≠ some (chr '/') ∨
      text ".." <:+: devicePath i) := by
    simp [hne, hhead, not_dots_infix_devicePath]
  have hlength : (text "/devices/").length = 9 := rfl
  have hid : ((devicePath i).drop 9).take 32 = sizeText i := by
    rw [devicePath, ← hlength, List.drop_left, List.take_of_length_le (length_sizeText_le hi)]
  have hpage : (devicePath i).take 9 = text "/devices/" := by
    rw [devicePath, ← hlength, List.take_left]
  have hhome : devicePath i ≠ text "/" := by
    intro h
    rw [h] at hpage
    revert hpage
    decide
  have hcontent : getContent site (devicePath i) = (text "application/json",
      lastShown (deviceFits (sizeText i)) SiteDevice.json 0 (text "{}") site.devices) := by
    rw [getContent, if_neg hhome, if_pos hpage, hid]
  have htype : text "application/json" ≠ [] := by decide
  unfold handleRequest
  rw [huri, urlDecode_devicePath]
  simp only [Bool.not_true, Bool.false_eq_true, if_false, if_neg hsafe, hcontent, hreply]
  rw [if_pos htype]
  exact ⟨rfl, rfl⟩

/-- A later device that is called like the number of an earlier one takes its
page. -/
def Shadows (site : Site) (i k : ℕ) : Prop :=
  i < k ∧ ∃ device, site.devices[k]? = some device ∧
    (device.id = sizeText i ∨ device.name = sizeText i)

theorem deviceFits_iff {site : Site} {i k : ℕ} (hk : k < site.devices.length) (hik : i < k) :
    deviceFits (sizeText i) k site.devices[k] = true ↔ Shadows site i k := by
  have hne : sizeText k ≠ sizeText i := by
    intro h
    have hnumber := sizeText_injective h
    omega
  simp [deviceFits, Shadows, hne, hik, List.getElem?_eq_getElem hk]

/-- The home page links every connected device, and the link leads to the values
of the device unless a later device is called like its number; then it leads to
the last one that is. -/
theorem home_links (site : Site) (hsize : site.devices.length ≤ 2 ^ 64) {i : ℕ}
    (hi : i < site.devices.length) (hconnected : site.devices[i].isConnected = true) :
    deviceLink i site.devices[i] <:+: (getContent site (text "/")).2 ∧
      ∃ j, ∃ hj : j < site.devices.length, (j = i ∨ Shadows site i j) ∧
        (∀ k, Shadows site i k → k ≤ j) ∧
        ∀ req status, req.uri = devicePath i →
          (handleRequest site req (Reply.fresh status)).status = .ok ∧
            (handleRequest site req (Reply.fresh status)).content = site.devices[j].json := by
  classical
  constructor
  · have hitem : deviceItem (0 + i) site.devices[i] <:+: listItems deviceItem 0 site.devices :=
      item_infix_listItems deviceItem 0 hi
    have hlink : deviceLink i site.devices[i] <:+: deviceItem i site.devices[i] := by
      rw [deviceItem, if_pos hconnected]
      exact ⟨_, _, rfl⟩
    have hhome : listItems deviceItem 0 site.devices <:+: site.home :=
      ⟨_, _, by simp only [Site.home, List.append_assoc]; rfl⟩
    have hhtml : site.home <:+: (getContent site (text "/")).2 := by
      rw [getContent, if_pos rfl]
      exact ⟨_, _, rfl⟩
    rw [Nat.zero_add] at hitem
    exact hlink.trans (hitem.trans (hhome.trans hhtml))
  · -- the greatest number of a device that fits
    have hle : i ≤ site.devices.length - 1 := by omega
    have hspec := Nat.findGreatest_spec (P := fun k => k = i ∨ Shadows site i k) hle (Or.inl rfl)
    have hbound : Nat.findGreatest (fun k => k = i ∨ Shadows site i k)
        (site.devices.length - 1) < site.devices.length := by
      have hlast := Nat.findGreatest_le (P := fun k => k = i ∨ Shadows site i k)
        (site.devices.length - 1)
      omega
    have hgreatest : ∀ k, k = i ∨ Shadows site i k → k < site.devices.length →
        k ≤ Nat.findGreatest (fun k => k = i ∨ Shadows site i k) (site.devices.length - 1) :=
      fun k hk hlength => Nat.le_findGreatest (by omega) hk
    generalize Nat.findGreatest (fun k => k = i ∨ Shadows site i k)
      (site.devices.length - 1) = j at hspec hbound hgreatest
    have hfirst : i ≤ j := hgreatest i (Or.inl rfl) hi
    refine ⟨j, hbound, hspec, ?_, ?_⟩
    · intro k hshadows
      have hpresent := hshadows
      obtain ⟨-, device, hdevice, -⟩ := hpresent
      exact hgreatest k (Or.inr hshadows) (List.getElem?_eq_some_iff.mp hdevice).1
    · intro req status huri
      have hnumber : i < 10 ^ 32 := by omega
      have hpage := handleRequest_devicePath site hnumber huri (Reply.fresh status) rfl
      have hfits : deviceFits (sizeText i) j site.devices[j] = true := by
        rcases hspec with rfl | hshadows
        · simp [deviceFits]
        · exact (deviceFits_iff hbound hshadows.1).mpr hshadows
      have hafter : ∀ k, j < k → (hk : k < site.devices.length) →
          deviceFits (sizeText i) k site.devices[k] = false := by
        intro k hjk hk
        rw [Bool.eq_false_iff]
        intro hlater
        have hshadows := (deviceFits_iff hk (by omega)).mp hlater
        have hnotLater := hgreatest k (Or.inr hshadows) hk
        omega
      exact ⟨hpage.1, hpage.2.trans (lastShown_of_last hbound hfits hafter _)⟩

/-- Two devices, the second one called like the number of the first. -/
def shadowedSite : Site where
  devices := [⟨text "bow", text "id_0", true, text "first"⟩,
    ⟨text "0", text "id_1", true, text "second"⟩]
  processors := []
  css := []
  icon := []
  version := []
  gitrev := []

theorem home_links_shadowed :
    0 < shadowedSite.devices.length ∧
      ∃ j, ∃ hj : j < shadowedSite.devices.length, (j = 0 ∨ Shadows shadowedSite 0 j) ∧
        (∀ k, Shadows shadowedSite 0 k → k ≤ j) ∧
        ∀ req status, req.uri = devicePath 0 →
          (handleRequest shadowedSite req (Reply.fresh status)).status = .ok ∧
            (handleRequest shadowedSite req (Reply.fresh status)).content =
              shadowedSite.devices[j].json :=
  ⟨by decide, (home_links shadowedSite (by decide) (by decide) rfl).2⟩

end SensorHub.Http
