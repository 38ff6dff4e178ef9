import SoulonWallet.EventPages
import SoulonWallet.PercentCoding

/-!
# Fetching one event

The client puts the encoded id behind the path of the events.  `net/http`
decodes the path once, and the handler decodes what follows the prefix once
more.

Go strings are bytes, and an id is the bytes of its text.  A path that the
mux leaves alone is left alone by the URL parser of the client too.
-/

namespace SoulonWallet.Api

open Chain (trimSpace isSpace)
open PercentCoding
open Utf8 (Bytes)

/-! ## The model -/

def bytesOf (text : String) : Bytes :=
  Utf8.encode text.toList

/-- `unicode.IsSpace`. -/
def spaces : List Char :=
  ['\t', '\n', '\u000b', '\u000c', '\r', ' ', '\u0085', '\u00a0', '\u1680',
    '\u2000', '\u2001', '\u2002', '\u2003', '\u2004', '\u2005', '\u2006',
    '\u2007', '\u2008', '\u2009', '\u200a', '\u2028', '\u2029', '\u202f',
    '\u205f', '\u3000']

/-- Drops what `pieces` spell at the front; every piece takes at least one
of `fuel` bytes. -/
def dropPieces (pieces : List Bytes) : ℕ → Bytes → Bytes
  | 0, bytes => bytes
  | fuel + 1, bytes =>
      match pieces.find? fun piece => piece.isPrefixOf bytes with
      | some piece => dropPieces pieces fuel (bytes.drop piece.length)
      | none => bytes

/-- `strings.TrimSpace` on bytes, which need not be a text. -/
def trimSpaceBytes (bytes : Bytes) : Bytes :=
  let pieces := spaces.map String.utf8EncodeChar
  let front := dropPieces pieces bytes.length bytes
  (dropPieces (pieces.map List.reverse) front.length front.reverse).reverse

def slash : UInt8 := 0x2F

/-- What is left of a rooted path, last segment first. -/
def cleanSegment (kept : List Bytes) (segment : Bytes) : List Bytes :=
  if segment = [] ∨ segment = bytesOf "." then kept
  else if segment = bytesOf ".." then kept.tail
  else segment :: kept

/-- `cleanPath` of the mux: `path.Clean`, with a trailing slash put back. -/
def cleanPath (path : Bytes) : Bytes :=
  let kept := (path.splitOn slash).foldl cleanSegment []
  let cleaned := slash :: [slash].intercalate kept.reverse
  if path.getLast? = some slash ∧ cleaned ≠ [slash] then cleaned ++ [slash]
  else cleaned

inductive EventAnswer where
  | badRequest
  | redirect (path : Bytes)
  | notFound
  | refused (error : ApiError)
  | event (event : Indexer.Event)

def findEventByID (events : List Indexer.Event) (eventID : Bytes) :
    Option Indexer.Event :=
  events.reverse.find? fun event => bytesOf event.id = eventID

def eventsPrefix : Bytes :=
  bytesOf "/v1/indexer/events/"

def trimPrefix (start bytes : Bytes) : Bytes :=
  if start.isPrefixOf bytes then bytes.drop start.length else bytes

def handleIndexerEventByID
    (loaded : Except LoadFailure (List Indexer.Event)) (path : Bytes) :
    EventAnswer :=
  let eventIDPath := trimSpaceBytes (trimPrefix eventsPrefix path)
  if eventIDPath = [] then .notFound
  else
    match unescape eventIDPath with
    | none => .refused (badRequest "invalid event id")
    | some eventID =>
        if trimSpaceBytes eventID = [] then
          .refused (badRequest "invalid event id")
        else
          match loaded with
          | .error .notExist => .notFound
          | .error (.failed message) =>
              .refused (writeApiError 500 .internal message false)
          | .ok events =>
              match findEventByID events eventID with
              | none => .notFound
              | some event => .event event

/-- A request below the prefix: the path is decoded, the mux looks at it as
it was written. -/
def serveEventByID (loaded : Except LoadFailure (List Indexer.Event))
    (escapedPath : Bytes) : EventAnswer :=
  match unescape escapedPath with
  | none => .badRequest
  | some path =>
      if cleanPath escapedPath ≠ escapedPath then
        .redirect (cleanPath escapedPath)
      else handleIndexerEventByID loaded path

/-- What `encodeURIComponent` keeps. -/
def isUnreserved (byte : UInt8) : Bool :=
  isAlphanumeric byte || byte ∈ bytesOf "-_.!~*'()"

def encodeURIComponent (text : String) : Bytes :=
  percentEncode isUnreserved (bytesOf text)

def indexerEventPath (eventId : String) : Bytes :=
  eventsPrefix ++ encodeURIComponent eventId

def getIndexerEventById
    (loaded : Except LoadFailure (List Indexer.Event)) (eventId : String) :
    EventAnswer :=
  serveEventByID loaded (indexerEventPath eventId)

/-- The answer is the last event of the log with that id. -/
def AnswersLast (log : List Indexer.Event) (eventId : String)
    (answer : EventAnswer) : Prop :=
  ∃ before event after,
    log = before ++ event :: after ∧ event.id = eventId ∧
      (∀ later ∈ after, later.id ≠ eventId) ∧ answer = .event event

/-! ## Trimming -/

theorem isSpace_of_mem_spaces
    {c : Char} (hc : c ∈ spaces) : isSpace c = true := by
  have hall : spaces.all isSpace = true := by decide
  exact List.all_eq_true.mp hall c hc

theorem dropPieces_eq_self
    {pieces : List Bytes} {bytes : Bytes}
    (hpieces : ∀ piece ∈ pieces, ¬ piece <+: bytes) (fuel : ℕ) :
    dropPieces pieces fuel bytes = bytes := by
  cases fuel with
  | zero => rfl
  | succ fuel =>
      have hnone : (pieces.find? fun piece => piece.isPrefixOf bytes) =
          none := by
        rw [List.find?_eq_none]
        intro piece hpiece
        rw [List.isPrefixOf_iff_prefix]
        exact hpieces piece hpiece
      rw [dropPieces, hnone]

theorem not_space_prefix
    {text : List Char} (hfirst : ∀ c ∈ text.head?, isSpace c = false)
    {c : Char} (hc : c ∈ spaces) :
    ¬ String.utf8EncodeChar c <+: Utf8.encode text := by
  rintro ⟨rest, hrest⟩
  cases text with
  | nil =>
      exact String.utf8EncodeChar_ne_nil (List.append_eq_nil_iff.mp hrest).1
  | cons d text =>
      rw [Utf8.encode_cons] at hrest
      obtain rfl := Utf8.first_char_unique hrest
      have hnot := hfirst c rfl
      rw [isSpace_of_mem_spaces hc] at hnot
      cases hnot

theorem not_space_suffix
    {text : List Char} (hlast : ∀ c ∈ text.getLast?, isSpace c = false)
    {c : Char} (hc : c ∈ spaces) :
    ¬ String.utf8EncodeChar c <:+ Utf8.encode text := by
  rintro ⟨rest, hrest⟩
  cases text using List.reverseRecOn with
  | nil =>
      exact String.utf8EncodeChar_ne_nil (List.append_eq_nil_iff.mp hrest).2
  | append_singleton text d =>
      have hencode : Utf8.encode (text ++ [d]) =
          Utf8.encode text ++ String.utf8EncodeChar d := by
        rw [Utf8.encode_append, Utf8.encode_cons]
        exact congrArg _ (List.append_nil _)
      rw [hencode] at hrest
      obtain rfl := Utf8.last_char_unique hrest
      have hnot := hlast c (List.getLast?_concat)
      rw [isSpace_of_mem_spaces hc] at hnot
      cases hnot

/-- Bytes of a text that has no space at its ends. -/
theorem trimSpaceBytes_encode
    {text : List Char} (hfirst : ∀ c ∈ text.head?, isSpace c = false)
    (hlast : ∀ c ∈ text.getLast?, isSpace c = false) :
    trimSpaceBytes (Utf8.encode text) = Utf8.encode text := by
  have hfront : ∀ piece ∈ spaces.map String.utf8EncodeChar,
      ¬ piece <+: Utf8.encode text := by
    intro piece hpiece
    obtain ⟨c, hc, rfl⟩ := List.mem_map.mp hpiece
    exact not_space_prefix hfirst hc
  have hback :
      ∀ piece ∈ (spaces.map String.utf8EncodeChar).map List.reverse,
        ¬ piece <+: (Utf8.encode text).reverse := by
    intro piece hpiece
    obtain ⟨forward, hforward, rfl⟩ := List.mem_map.mp hpiece
    obtain ⟨c, hc, rfl⟩ := List.mem_map.mp hforward
    rw [List.reverse_prefix]
    exact not_space_suffix hlast hc
  unfold trimSpaceBytes
  simp only [dropPieces_eq_self hfront, dropPieces_eq_self hback,
    List.reverse_reverse]

theorem head_not_space
    {text : List Char} (hdrop : text.dropWhile isSpace = text) :
    ∀ c ∈ text.head?, isSpace c = false := by
  intro c hc
  have hnot := List.head?_dropWhile_not isSpace text
  rw [hdrop, hc] at hnot
  exact hnot

theorem trimSpaceBytes_bytesOf
    {text : String} (htrim : trimSpace text = text) :
    trimSpaceBytes (bytesOf text) = bytesOf text := by
  have hlist := congrArg String.toList htrim
  rw [Chain.toList_trimSpace] at hlist
  have hfront : text.toList.dropWhile isSpace = text.toList := by
    apply (List.dropWhile_suffix isSpace).eq_of_length_le
    have hlength := congrArg List.length hlist
    rw [List.length_reverse] at hlength
    calc
      text.toList.length =
          ((text.toList.dropWhile isSpace).reverse.dropWhile
            isSpace).length := hlength.symm
      _ ≤ (text.toList.dropWhile isSpace).reverse.length :=
        (List.dropWhile_suffix isSpace).length_le
      _ = (text.toList.dropWhile isSpace).length := List.length_reverse
  have hback : text.toList.reverse.dropWhile isSpace =
      text.toList.reverse := by
    rw [hfront] at hlist
    exact List.reverse_eq_iff.mp hlist
  apply trimSpaceBytes_encode (head_not_space hfront)
  intro c hc
  rw [← List.head?_reverse] at hc
  exact head_not_space hback c hc

/-! ## The request -/

theorem bytesOf_injective : Function.Injective bytesOf := by
  intro left right hsame
  exact String.toList_injective (Utf8.encode_injective hsame)

theorem bytesOf_eq_nil_iff {text : String} :
    bytesOf text = [] ↔ text = "" := by
  constructor
  · intro hnil
    exact bytesOf_injective (hnil.trans rfl)
  · rintro rfl
    rfl

theorem percent_mem_bytesOf_iff {text : String} :
    percent ∈ bytesOf text ↔ '%' ∈ text.toList :=
  Utf8.mem_encode_iff (by decide)

theorem unescape_indexerEventPath (eventId : String) :
    unescape (indexerEventPath eventId) =
      some (eventsPrefix ++ bytesOf eventId) := by
  unfold indexerEventPath encodeURIComponent
  rw [unescape_append (by decide), unescape_percentEncode (by decide)]
  rfl

theorem trimPrefix_append (start rest : Bytes) :
    trimPrefix start (start ++ rest) = rest := by
  unfold trimPrefix
  rw [if_pos (List.isPrefixOf_iff_prefix.mpr (List.prefix_append _ _)),
    List.drop_left]

theorem getIndexerEventById_eq
    {log : List Indexer.Event} {eventId : String}
    (hclean : cleanPath (indexerEventPath eventId) =
      indexerEventPath eventId) :
    getIndexerEventById (.ok log) eventId =
      handleIndexerEventByID (.ok log)
        (eventsPrefix ++ bytesOf eventId) := by
  unfold getIndexerEventById serveEventByID
  rw [unescape_indexerEventPath]
  exact if_neg (not_not.mpr hclean)

theorem find_last
    {log : List Indexer.Event} {eventID : Bytes} {event : Indexer.Event}
    (hfind : findEventByID log eventID = some event) :
    bytesOf event.id = eventID := by
  have hfound := List.find?_some hfind
  exact of_decide_eq_true hfound

/-- The search from the end finds the last one. -/
theorem exists_last
    {log : List Indexer.Event} {eventId : String}
    (hid : ∃ event ∈ log, event.id = eventId) :
    ∃ before event after,
      log = before ++ event :: after ∧ event.id = eventId ∧
        (∀ later ∈ after, later.id ≠ eventId) ∧
        findEventByID log (bytesOf eventId) = some event := by
  induction log using List.reverseRecOn with
  | nil =>
      obtain ⟨event, hmem, -⟩ := hid
      cases hmem
  | append_singleton log last ih =>
      by_cases hlast : last.id = eventId
      · refine ⟨log, last, [], rfl, hlast, by simp, ?_⟩
        simp [findEventByID, hlast]
      · obtain ⟨event, hmem, hevent⟩ := hid
        have hold : event ∈ log := by
          rcases List.mem_append.mp hmem with hold | hnew
          · exact hold
          · rw [List.mem_singleton.mp hnew] at hevent
            exact absurd hevent hlast
        obtain ⟨before, found, after, hlog, hfound, hlater, hfind⟩ :=
          ih ⟨event, hold, hevent⟩
        refine ⟨before, found, after ++ [last], ?_, hfound, ?_, ?_⟩
        · rw [hlog, List.append_assoc, List.cons_append]
        · intro later hmemLater
          rcases List.mem_append.mp hmemLater with hmemOld | hmemNew
          · exact hlater later hmemOld
          · rw [List.mem_singleton.mp hmemNew]
            exact hlast
        · unfold findEventByID at hfind ⊢
          rw [List.reverse_append, List.reverse_singleton,
            List.singleton_append, List.find?_cons_of_neg]
          · exact hfind
          · simpa using fun hsame => hlast (bytesOf_injective hsame)

/-- The last event with an id is found under it exactly when the id is not
empty and has no percent sign: the handler decodes a path that has been
decoded. -/
theorem event_by_id_iff
    {log : List Indexer.Event} {eventId : String}
    (hid : ∃ event ∈ log, event.id = eventId)
    (htrim : trimSpace eventId = eventId)
    (hclean : cleanPath (indexerEventPath eventId) =
      indexerEventPath eventId) :
    AnswersLast log eventId (getIndexerEventById (.ok log) eventId) ↔
      eventId ≠ "" ∧ '%' ∉ eventId.toList := by
  rw [getIndexerEventById_eq hclean, ← percent_mem_bytesOf_iff]
  unfold handleIndexerEventByID
  simp only [trimPrefix_append, trimSpaceBytes_bytesOf htrim]
  split_ifs with hnil
  · refine iff_of_false ?_ fun hboth => hboth.1 (bytesOf_eq_nil_iff.mp hnil)
    rintro ⟨before, event, after, -, -, -, hanswer⟩
    cases hanswer
  · have hne : eventId ≠ "" := fun hempty =>
      hnil (bytesOf_eq_nil_iff.mpr hempty)
    by_cases hpercent : percent ∈ bytesOf eventId
    · refine iff_of_false ?_ fun hboth => hboth.2 hpercent
      rintro ⟨before, event, after, -, hevent, -, hanswer⟩
      split at hanswer
      next => cases hanswer
      next decoded hdecoded =>
        split_ifs at hanswer
        split at hanswer
        next => cases hanswer
        next found hfound =>
          obtain rfl := EventAnswer.event.inj hanswer
          rw [← find_last hfound, hevent] at hdecoded
          exact unescape_eq_self_iff.mp hdecoded hpercent
    · refine iff_of_true ?_ ⟨hne, hpercent⟩
      obtain ⟨before, event, after, hlog, hevent, hlater, hfind⟩ :=
        exists_last hid
      rw [unescape_eq_self hpercent]
      simp only [trimSpaceBytes_bytesOf htrim, if_neg hnil, hfind]
      exact ⟨before, event, after, hlog, hevent, hlater, rfl⟩

/-- A space and a slash, which have to be encoded. -/
def oddEvent : Indexer.Event :=
  { id := "a b/c", height := 1, type := "new_block" }

theorem event_by_id_of_oddEvent :
    AnswersLast [oddEvent] "a b/c"
      (getIndexerEventById (.ok [oddEvent]) "a b/c") :=
  (event_by_id_iff ⟨oddEvent, List.mem_singleton.mpr rfl, rfl⟩ (by decide)
    (by decide)).mpr ⟨by decide, by decide⟩

def percentEvent : Indexer.Event :=
  { id := "100%", height := 1, type := "new_block" }

theorem event_by_id_refused :
    ¬ ∀ (log : List Indexer.Event) (eventId : String),
      (∃ event ∈ log, event.id = eventId) →
      trimSpace eventId = eventId →
      cleanPath (indexerEventPath eventId) = indexerEventPath eventId →
      AnswersLast log eventId (getIndexerEventById (.ok log) eventId) := by
  intro hall
  have htrim : trimSpace "100%" = "100%" := by decide
  have hclean : cleanPath (indexerEventPath "100%") =
      indexerEventPath "100%" := by decide
  have hread : unescape (bytesOf "100%") = none := by decide
  have hne : bytesOf "100%" ≠ [] := by decide
  obtain ⟨before, event, after, -, -, -, hanswer⟩ :=
    hall [percentEvent] "100%"
      ⟨percentEvent, List.mem_singleton.mpr rfl, rfl⟩ htrim hclean
  rw [getIndexerEventById_eq hclean, handleIndexerEventByID] at hanswer
  simp only [trimPrefix_append, trimSpaceBytes_bytesOf htrim, if_neg hne,
    hread] at hanswer
  cases hanswer

end SoulonWallet.Api
