import Mathlib.Data.List.DropRight
import SoulonWallet.GoDecimals
import SoulonWallet.PageReading

/-!
# Pages of the notification buffer

`pushNotification` cuts the front of the buffer off when it has grown beyond
its capacity.  `handleNotifications` answers with one page of the buffer, the
last notification first, and the stream starts with the latest ones, in a loop
of its own.
-/

namespace SoulonWallet.Api

open Chain (trimSpace)
open LabelledRun PageReading

/-! ## The model -/

/-- The parameters of the request, empty where there are none. -/
structure NotificationsRequest where
  method : String
  limit : String
  offset : String

structure NotificationsPage (Message : Type) where
  notifications : List (Entry Message)
  total : ℕ
  offset : ℕ
  limit : ℕ
  hasMore : Bool

def parseNotificationsLimit (raw : String) : Except ApiError ℕ :=
  if trimSpace raw = "" then .ok 20
  else
    match atoi (trimSpace raw) with
    | some parsed =>
        if parsed ≤ 0 ∨ 200 < parsed then .error (badRequest "invalid limit")
        else .ok parsed.toNat
    | none => .error (badRequest "invalid limit")

def parseNotificationsOffset (raw : String) : Except ApiError ℕ :=
  if trimSpace raw = "" then .ok 0
  else
    match atoi (trimSpace raw) with
    | some parsed =>
        if parsed < 0 then .error (badRequest "invalid offset")
        else .ok parsed.toNat
    | none => .error (badRequest "invalid offset")

/-- What a loop appends that runs over the places of a buffer from
`bound - 1` down to `stop`. -/
def downTo {Item : Type} (buffer : List Item) (stop : ℕ) : ℕ → List Item
  | 0 => []
  | index + 1 =>
      if stop ≤ index then
        buffer[index]?.toList ++ downTo buffer stop index
      else []

def handleNotifications {Message : Type} (buffer : List (Entry Message))
    (request : NotificationsRequest) :
    Except ApiError (NotificationsPage Message) := do
  if request.method ≠ "GET" then .error methodNotAllowed
  let limit ← parseNotificationsLimit request.limit
  let offset ← parseNotificationsOffset request.offset
  let total := buffer.length
  if total ≤ offset then
    .ok { notifications := [], total, offset, limit, hasMore := false }
  else
    let ordered := downTo buffer 0 total
    let stop := min (offset + limit) ordered.length
    .ok
      { notifications := (ordered.take stop).drop offset
        total, offset, limit
        hasMore := stop < ordered.length }

/-- The request for one page. -/
def pageRequest (limit offset : ℕ) : NotificationsRequest where
  method := "GET"
  limit := toString limit
  offset := toString offset

/-- The server answers the request for the page at `offset`. -/
def AnswersPage {Message : Type} (buffer : List (Entry Message))
    (limit offset : ℕ) (answer : List (Entry Message) × Bool) : Prop :=
  ∃ page, handleNotifications buffer (pageRequest limit offset) = .ok page ∧
    answer = (page.notifications, page.hasMore)

/-- What the pushes among the turns have brought, in their order. -/
def pushedMessages {Message : Type} :
    List (StreamTurn Message) → List Message
  | [] => []
  | .push message :: turns => message :: pushedMessages turns
  | _ :: turns => pushedMessages turns

/-! ## The loops -/

section Loops

variable {Item : Type} (buffer : List Item)

theorem downTo_eq (stop : ℕ) {bound : ℕ} (hbound : bound ≤ buffer.length) :
    downTo buffer stop bound = ((buffer.take bound).drop stop).reverse := by
  induction bound with
  | zero => simp [downTo]
  | succ index ih =>
      have hindex : index < buffer.length := hbound
      have hlength : (buffer.take index).length = index :=
        List.length_take_of_le hindex.le
      rw [downTo, List.getElem?_eq_getElem hindex, ih hindex.le,
        ← List.take_concat_get' buffer index hindex]
      split_ifs with hstop
      · rw [List.drop_append_of_le_length (by omega), List.reverse_concat]
        rfl
      · rw [List.drop_eq_nil_of_le, List.reverse_nil]
        rw [List.length_append, List.length_singleton, hlength]
        omega

theorem downTo_zero : downTo buffer 0 buffer.length = buffer.reverse := by
  rw [downTo_eq buffer 0 le_rfl, List.take_length, List.drop_zero]

theorem rtake_rtake_append (count : ℕ) (added : List Item) :
    (buffer.rtake count ++ added).rtake count =
      (buffer ++ added).rtake count := by
  simp only [List.rtake_eq_reverse_take_reverse, List.reverse_append,
    List.reverse_reverse, List.take_append, List.take_take]
  rw [min_eq_left (Nat.sub_le _ _)]

end Loops

/-! ## The buffer -/

namespace Hub

variable {Message : Type} {hub next : Hub Message}
variable {turn : StreamTurn Message}

/-- The messages of the buffer, in the order of their pushes. -/
def messages (hub : Hub Message) : List Message :=
  hub.notifications.map Entry.message

theorem messages_pushNotification (message : Message) :
    (hub.pushNotification message).messages =
      (hub.messages ++ [message]).rtake hub.notifyCapacity := by
  rw [List.rtake, messages, messages, pushNotification, List.map_drop,
    List.map_append, List.map_singleton, List.length_append,
    List.length_append, List.length_map]
  rfl

theorem Moves.messages
    (hmoves : hub.Moves turn next) :
    next.notifyCapacity = hub.notifyCapacity ∧
      (next.messages = hub.messages ∧ pushedMessages [turn] = [] ∨
        next.messages =
          (hub.messages ++ pushedMessages [turn]).rtake
            hub.notifyCapacity) := by
  cases hmoves with
  | push => exact ⟨rfl, Or.inr (messages_pushNotification _)⟩
  | refuse | subscribe | reject | snapshot | receive | leave | send =>
      exact ⟨rfl, Or.inl ⟨rfl, rfl⟩⟩

theorem pushedMessages_cons (turns : List (StreamTurn Message)) :
    pushedMessages (turn :: turns) =
      pushedMessages [turn] ++ pushedMessages turns := by
  cases turn <;> rfl

/-- The buffer is the end of what it was and what has been pushed since. -/
theorem messages_of_exec
    {turns : List (StreamTurn Message)}
    (hbounded : hub.messages.length ≤ hub.notifyCapacity)
    (hrun : exec step hub turns = some next) :
    next.messages =
      (hub.messages ++ pushedMessages turns).rtake hub.notifyCapacity := by
  induction turns generalizing hub with
  | nil =>
      obtain rfl := Option.some.inj hrun
      rw [pushedMessages, List.append_nil, List.rtake,
        Nat.sub_eq_zero_of_le hbounded, List.drop_zero]
  | cons turn turns ih =>
      obtain ⟨middle, hstep, hrest⟩ := exec_cons_eq_some.mp hrun
      obtain ⟨hcapacity, hmessages⟩ := (moves_of_step hstep).messages
      have hmiddle : middle.messages =
          (hub.messages ++ pushedMessages [turn]).rtake
            hub.notifyCapacity := by
        rcases hmessages with ⟨hsame, hnone⟩ | hpushed
        · rw [hsame, hnone, List.append_nil, List.rtake,
            Nat.sub_eq_zero_of_le hbounded, List.drop_zero]
        · exact hpushed
      have hlength : middle.messages.length ≤ middle.notifyCapacity := by
        rw [hmiddle, hcapacity, List.rtake, List.length_drop]
        omega
      rw [ih hlength hrest, hmiddle, hcapacity, rtake_rtake_append,
        List.append_assoc, ← pushedMessages_cons]

end Hub

/-! ## The pages -/

section Pages

variable {Message : Type} (buffer : List (Entry Message))

theorem parseNotificationsLimit_eq
    {limit : ℕ} (hlimit : 1 ≤ limit ∧ limit ≤ 200) :
    parseNotificationsLimit (toString limit) = .ok limit := by
  have hfits : FitsInt64 limit := by
    unfold FitsInt64
    omega
  have hin : ¬ ((limit : ℤ) ≤ 0 ∨ 200 < (limit : ℤ)) := by omega
  have htext : toString limit = toString (limit : ℤ) := rfl
  rw [parseNotificationsLimit, htext, trimSpace_toString,
    if_neg (toString_ne_empty _), atoi_toString, if_pos hfits]
  simp only [if_neg hin, Int.toNat_natCast]

theorem parseNotificationsOffset_eq
    {offset : ℕ} (hoffset : FitsInt64 offset) :
    parseNotificationsOffset (toString offset) = .ok offset := by
  have hpositive : ¬ (offset : ℤ) < 0 := by omega
  have htext : toString offset = toString (offset : ℤ) := rfl
  rw [parseNotificationsOffset, htext, trimSpace_toString,
    if_neg (toString_ne_empty _), atoi_toString, if_pos hoffset]
  simp only [if_neg hpositive, Int.toNat_natCast]

theorem handleNotifications_eq
    {limit offset : ℕ} (hlimit : 1 ≤ limit ∧ limit ≤ 200)
    (hoffset : FitsInt64 offset) :
    handleNotifications buffer (pageRequest limit offset) =
      .ok
        { notifications := (page buffer.reverse limit offset).1
          total := buffer.length
          offset, limit
          hasMore := (page buffer.reverse limit offset).2 } := by
  simp only [handleNotifications, pageRequest, ne_eq, not_true_eq_false,
    if_false, parseNotificationsLimit_eq hlimit,
    parseNotificationsOffset_eq hoffset, downTo_zero, bind, Except.bind]
  split_ifs with hpast
  · rw [page_of_past (by rwa [List.length_reverse])]
  · rw [← slice_eq_page buffer.reverse limit offset]

theorem answersPage_iff
    {limit offset : ℕ} (hlimit : 1 ≤ limit ∧ limit ≤ 200)
    (hoffset : FitsInt64 offset) (answer : List (Entry Message) × Bool) :
    AnswersPage buffer limit offset answer ↔
      answer = page buffer.reverse limit offset := by
  rw [AnswersPage, handleNotifications_eq buffer hlimit hoffset]
  constructor
  · rintro ⟨answered, hanswered, rfl⟩
    rw [← Except.ok.inj hanswered]
  · rintro rfl
    exact ⟨_, rfl, rfl⟩

/-- The definition of the latest notifications is the loop of the source. -/
theorem snapshotLatestNotifications_eq_downTo (limit : ℤ) :
    Hub.snapshotLatestNotifications buffer limit =
      downTo buffer
        (buffer.length - min (max limit 1) buffer.length).toNat
        buffer.length := by
  have hlimit : (if limit ≤ 0 then (1 : ℤ) else limit) = max limit 1 := by
    split_ifs <;> omega
  have hbounded : (if (buffer.length : ℤ) < max limit 1 then
      (buffer.length : ℤ) else max limit 1) =
        min (max limit 1) buffer.length := by
    split_ifs <;> omega
  rw [downTo_eq buffer _ le_rfl, List.take_length,
    Hub.snapshotLatestNotifications]
  simp only [hlimit, hbounded]

theorem snapshotLatestNotifications_eq_take {limit : ℤ} (hlimit : 1 ≤ limit) :
    Hub.snapshotLatestNotifications buffer limit =
      buffer.reverse.take (min limit.toNat buffer.length) := by
  have hstop : (buffer.length - min (max limit 1) buffer.length : ℤ).toNat =
      buffer.length - min limit.toNat buffer.length := by
    omega
  rw [snapshotLatestNotifications_eq_downTo, hstop, downTo_eq buffer _ le_rfl,
    List.take_length, List.reverse_drop, Nat.sub_sub_self (min_le_right _ _)]

end Pages

/-- Whatever else the server does in between, the buffer holds the last
messages that were pushed, its pages are the buffer from its end, and so are
the latest notifications. -/
theorem notification_buffer_paged
    {Message : Type} (notifyToken : String) {capacity : ℤ}
    (hcapacity : 1 ≤ capacity) (hint : FitsInt64 capacity)
    {turns : List (StreamTurn Message)} {hub : Hub Message}
    (hrun : exec Hub.step (Hub.initial notifyToken capacity) turns =
      some hub) :
    hub.messages =
        (pushedMessages turns).rtake
          (min (pushedMessages turns).length capacity.toNat) ∧
      (∀ limit read, 1 ≤ limit ∧ limit ≤ 200 →
        (Reads (AnswersPage hub.notifications limit) limit 0 read ↔
          read = hub.notifications.reverse)) ∧
      ∀ limit : ℤ, 1 ≤ limit →
        Hub.snapshotLatestNotifications hub.notifications limit =
          hub.notifications.reverse.take
            (min limit.toNat hub.notifications.length) := by
  have hinitial : (Hub.initial notifyToken capacity :
      Hub Message).notifyCapacity = capacity.toNat :=
    if_neg (by omega)
  have hmessages := Hub.messages_of_exec (Nat.zero_le _) hrun
  rw [hinitial] at hmessages
  refine ⟨?_, ?_, ?_⟩
  · have hend : (pushedMessages turns).length -
        min (pushedMessages turns).length capacity.toNat =
          (pushedMessages turns).length - capacity.toNat := by
      omega
    rw [hmessages, List.rtake, List.rtake, hend]
    rfl
  · intro limit read hlimit
    have hlength : hub.notifications.length ≤ capacity.toNat := by
      rw [← List.length_map (f := Entry.message), ← Hub.messages, hmessages,
        List.rtake, List.length_drop]
      omega
    apply reads_iff _ hlimit.1
    intro offset answer hoffset
    rw [List.length_reverse] at hoffset
    apply answersPage_iff _ hlimit
    unfold FitsInt64 at hint ⊢
    omega
  · intro limit hlimit
    exact snapshotLatestNotifications_eq_take _ hlimit

/-- Three pushes on a buffer for two, read one at a time. -/
theorem notification_buffer_paged_of_three :
    ∃ hub : Hub String,
      exec Hub.step (Hub.initial "" 2)
          [.push "evt-1", .push "evt-2", .push "evt-3"] = some hub ∧
        hub.messages = ["evt-2", "evt-3"] ∧
        Reads (AnswersPage hub.notifications 1) 1 0
          [⟨2, "evt-3"⟩, ⟨1, "evt-2"⟩] ∧
        Hub.snapshotLatestNotifications hub.notifications 10 =
          [⟨2, "evt-3"⟩, ⟨1, "evt-2"⟩] := by
  have hrun : exec Hub.step (Hub.initial "" 2 : Hub String)
      [.push "evt-1", .push "evt-2", .push "evt-3"] = some _ := rfl
  obtain ⟨hbuffer, hpages, hlatest⟩ :=
    notification_buffer_paged "" (by decide) (by decide) hrun
  exact ⟨_, hrun, hbuffer, (hpages 1 _ (by decide)).mpr rfl,
    hlatest 10 (by decide)⟩

end SoulonWallet.Api
