import SoulonWallet.EventById
import SoulonWallet.UrlValues

/-!
# Requests passed on to the chain

The handlers below `/v1/chain/` turn a request into one for the REST endpoint
of the chain: a fixed path, or a fixed path around one escaped segment, with
the query encoded anew.  `Resource` says what such a request asks for.  Every
request that is passed on asks for the one resource that its path names to the
handler, and no two resources have the same path, so nothing in the path of a
request can turn it into a request for something else.  Only an id that is one
or two dots is left for the chain to read as a step in the path.

The endpoint is taken to be a URL.  Parsing it and writing it again leave a
path and a query alone that consist of what is written here.
-/

namespace SoulonWallet.Api

open Chain (isSpace)
open PercentCoding
open Utf8 (Bytes)

/-! ## The model -/

/-- A request as a handler reads it: the path is decoded, the body none where
it could not be read. -/
structure ChainRequest where
  method : String
  path : Bytes
  rawQuery : Bytes
  body : Option Bytes

structure UpstreamRequest where
  method : String
  path : Bytes
  rawQuery : Bytes
  body : Bytes
  accept : String
  contentType : Option String
  deriving DecidableEq

inductive Handled where
  | notFound
  | refused (error : ApiError)
  | forwarded (upstream : UpstreamRequest)
  deriving DecidableEq

/-- What `url.PathEscape` keeps. -/
def isSegmentByte (byte : UInt8) : Bool :=
  UrlValues.isUnreserved byte || byte ∈ bytesOf "$&+=:@"

def pathEscape (segment : Bytes) : Bytes :=
  percentEncode isSegmentByte segment

def trimSuffix (ending bytes : Bytes) : Bytes :=
  if ending.isSuffixOf bytes then bytes.take (bytes.length - ending.length)
  else bytes

def proxyChainRequestWithBody (request : ChainRequest) (method : String)
    (upstreamPath body : Bytes) : Handled :=
  .forwarded
    { method
      path := upstreamPath
      rawQuery := UrlValues.encode (UrlValues.parseQuery request.rawQuery)
      body
      accept := "application/json"
      contentType := if 0 < body.length then some "application/json" else none }

def proxyChainRequest (request : ChainRequest) (method : String)
    (upstreamPath : Bytes) : Handled :=
  if request.method ≠ method then .refused methodNotAllowed
  else proxyChainRequestWithBody request method upstreamPath []

def handleChainValidators (request : ChainRequest) : Handled :=
  proxyChainRequest request "GET" (bytesOf "/cosmos/staking/v1beta1/validators")

def handleChainDelegations (request : ChainRequest) : Handled :=
  let delegatorAddress := trimSpaceBytes
    (trimPrefix (bytesOf "/v1/chain/staking/delegations/") request.path)
  if delegatorAddress = [] then .notFound
  else
    proxyChainRequest request "GET"
      (bytesOf "/cosmos/staking/v1beta1/delegations/" ++
        pathEscape delegatorAddress)

def handleChainRewards (request : ChainRequest) : Handled :=
  let suffix := trimSpaceBytes
    (trimPrefix (bytesOf "/v1/chain/distribution/delegators/") request.path)
  if suffix = [] then .notFound
  else
    match suffix.splitOn slash with
    | [delegator, last] =>
        if trimSpaceBytes delegator = [] ∨ last ≠ bytesOf "rewards" then
          .notFound
        else
          proxyChainRequest request "GET"
            (bytesOf "/cosmos/distribution/v1beta1/delegators/" ++
              pathEscape delegator ++ bytesOf "/rewards")
    | _ => .notFound

def handleChainGovProposals (request : ChainRequest) : Handled :=
  proxyChainRequest request "GET" (bytesOf "/cosmos/gov/v1beta1/proposals")

def handleChainGovProposalByID (request : ChainRequest) : Handled :=
  let suffix := trimSpaceBytes
    (trimPrefix (bytesOf "/v1/chain/gov/proposals/") request.path)
  if suffix = [] then .notFound
  else if (bytesOf "/votes").isSuffixOf suffix then
    let proposalID := trimSpaceBytes
      (trimSuffix [slash] (trimSuffix (bytesOf "/votes") suffix))
    if proposalID = [] then .notFound
    else
      proxyChainRequest request "GET"
        (bytesOf "/cosmos/gov/v1beta1/proposals/" ++ pathEscape proposalID ++
          bytesOf "/votes")
  else
    let proposalID := trimSpaceBytes (trimSuffix [slash] suffix)
    if proposalID = [] then .notFound
    else
      proxyChainRequest request "GET"
        (bytesOf "/cosmos/gov/v1beta1/proposals/" ++ pathEscape proposalID)

def handleChainTxByHash (request : ChainRequest) : Handled :=
  let txHash := trimSpaceBytes
    (trimPrefix (bytesOf "/v1/chain/txs/") request.path)
  if txHash = [] then .notFound
  else
    proxyChainRequest request "GET"
      (bytesOf "/cosmos/tx/v1beta1/txs/" ++ pathEscape txHash)

def handleChainTxBroadcast (request : ChainRequest) : Handled :=
  if request.method ≠ "POST" then .refused methodNotAllowed
  else
    match request.body with
    | none => .refused (badRequest "invalid request body")
    | some body =>
        if trimSpaceBytes body = [] then
          .refused (badRequest "request body is required")
        else
          proxyChainRequestWithBody request "POST"
            (bytesOf "/cosmos/tx/v1beta1/txs") body

/-- The handlers below `/v1/chain/`. -/
inductive ChainRoute where
  | validators
  | delegations
  | rewards
  | govProposals
  | govProposalByID
  | txByHash
  | txBroadcast
  deriving DecidableEq

def ChainRoute.handle : ChainRoute → ChainRequest → Handled
  | validators => handleChainValidators
  | delegations => handleChainDelegations
  | rewards => handleChainRewards
  | govProposals => handleChainGovProposals
  | govProposalByID => handleChainGovProposalByID
  | txByHash => handleChainTxByHash
  | txBroadcast => handleChainTxBroadcast

/-! ## What a request asks for -/

/-- What the chain is asked for. -/
inductive Resource where
  | validators
  | proposals
  | txs
  | delegations (delegator : Bytes)
  | rewards (delegator : Bytes)
  | proposal (proposalID : Bytes)
  | votes (proposalID : Bytes)
  | tx (txHash : Bytes)
  deriving DecidableEq

namespace Resource

def id : Resource → Option Bytes
  | validators | proposals | txs => none
  | delegations id | rewards id | proposal id | votes id | tx id => some id

/-- The segments of the path before the id. -/
def before : Resource → List Bytes
  | validators => ["cosmos", "staking", "v1beta1", "validators"].map bytesOf
  | proposals | proposal _ | votes _ =>
      ["cosmos", "gov", "v1beta1", "proposals"].map bytesOf
  | txs | tx _ => ["cosmos", "tx", "v1beta1", "txs"].map bytesOf
  | delegations _ =>
      ["cosmos", "staking", "v1beta1", "delegations"].map bytesOf
  | rewards _ =>
      ["cosmos", "distribution", "v1beta1", "delegators"].map bytesOf

def after : Resource → List Bytes
  | rewards _ => [bytesOf "rewards"]
  | votes _ => [bytesOf "votes"]
  | _ => []

def segments (resource : Resource) : List Bytes :=
  resource.before ++ resource.id.toList ++ resource.after

/-- Every segment escaped on its own. -/
def path (resource : Resource) : Bytes :=
  slash :: [slash].intercalate (resource.segments.map pathEscape)

def method : Resource → String
  | txs => "POST"
  | _ => "GET"

/-- An id that is there is not empty. -/
def Named (resource : Resource) : Prop :=
  ∀ id ∈ resource.id, id ≠ []

end Resource

/-- The text of a path below a root, without the spaces around it. -/
def textBelow (root : String) (path : Bytes) : Bytes :=
  trimSpaceBytes (trimPrefix (bytesOf root) path)

/-- The resource that a path names to a handler. -/
inductive ChainRoute.Names : ChainRoute → Bytes → Resource → Prop where
  | validators {path : Bytes} : Names .validators path .validators
  | proposals {path : Bytes} : Names .govProposals path .proposals
  | txs {path : Bytes} : Names .txBroadcast path .txs
  | delegations {path : Bytes} :
      Names .delegations path
        (.delegations (textBelow "/v1/chain/staking/delegations/" path))
  | rewards {path delegator : Bytes}
      (htext : textBelow "/v1/chain/distribution/delegators/" path =
        delegator ++ bytesOf "/rewards")
      (hdelegator : slash ∉ delegator) :
      Names .rewards path (.rewards delegator)
  | votes {path text : Bytes}
      (htext : textBelow "/v1/chain/gov/proposals/" path =
        text ++ bytesOf "/votes") :
      Names .govProposalByID path
        (.votes (trimSpaceBytes (trimSuffix [slash] text)))
  | proposal {path : Bytes}
      (htext : ¬ bytesOf "/votes" <:+
        textBelow "/v1/chain/gov/proposals/" path) :
      Names .govProposalByID path
        (.proposal (trimSpaceBytes
          (trimSuffix [slash] (textBelow "/v1/chain/gov/proposals/" path))))
  | tx {path : Bytes} :
      Names .txByHash path (.tx (textBelow "/v1/chain/txs/" path))

/-! ## Escaped segments -/

theorem unescape_pathEscape (segment : Bytes) :
    unescape (pathEscape segment) = some segment :=
  unescape_percentEncode (by decide) segment

theorem pathEscape_injective : Function.Injective pathEscape := by
  intro left right hsame
  have hread := unescape_pathEscape left
  rw [hsame, unescape_pathEscape] at hread
  exact (Option.some.inj hread).symm

theorem isSegmentByte_hexDigit {value : ℕ} (hvalue : value < 16) :
    isSegmentByte (hexDigit value) = true := by
  unfold isSegmentByte
  rw [UrlValues.isUnreserved_hexDigit hvalue]
  rfl

theorem mem_pathEscape
    {segment : Bytes} {byte : UInt8} (hmem : byte ∈ pathEscape segment) :
    isSegmentByte byte = true ∨ byte = percent := by
  obtain ⟨original, -, hmem⟩ := List.mem_flatMap.mp hmem
  have horiginal : original.toNat < 256 := UInt8.toNat_lt original
  unfold encodeByte at hmem
  split_ifs at hmem with hkept
  · rw [List.mem_singleton.mp hmem]
    exact Or.inl hkept
  · simp only [List.mem_cons, List.not_mem_nil, or_false] at hmem
    rcases hmem with rfl | rfl | rfl
    · exact Or.inr rfl
    · exact Or.inl (isSegmentByte_hexDigit (by omega))
    · exact Or.inl (isSegmentByte_hexDigit (by omega))

theorem slash_notMem_pathEscape (segment : Bytes) :
    slash ∉ pathEscape segment := by
  intro hmem
  rcases mem_pathEscape hmem with hkept | hsame
  · exact absurd hkept (by decide)
  · exact absurd hsame (by decide)

theorem pathEscape_eq_self
    {segment : Bytes} (hkept : ∀ byte ∈ segment, isSegmentByte byte = true) :
    pathEscape segment = segment := by
  unfold pathEscape percentEncode
  induction segment with
  | nil => rfl
  | cons byte rest ih =>
      obtain ⟨hbyte, hrest⟩ := List.forall_mem_cons.mp hkept
      rw [List.flatMap_cons, ih hrest, encodeByte, if_pos hbyte]
      rfl

theorem pathEscape_eq_iff
    {segment kept : Bytes} (hkept : ∀ byte ∈ kept, isSegmentByte byte = true) :
    pathEscape segment = kept ↔ segment = kept := by
  constructor
  · intro hsame
    apply pathEscape_injective
    rw [hsame, pathEscape_eq_self hkept]
  · rintro rfl
    exact pathEscape_eq_self hkept

/-! ## Rooted paths -/

/-- The path with these segments. -/
def rooted (segments : List Bytes) : Bytes :=
  slash :: [slash].intercalate segments

theorem splitOn_rooted
    {segments : List Bytes} (hne : segments ≠ [])
    (hslash : ∀ segment ∈ segments, slash ∉ segment) :
    (rooted segments).splitOn slash = [] :: segments := by
  have hrooted : rooted segments = [slash].intercalate ([] :: segments) := by
    rw [List.intercalate_cons_of_ne_nil hne]
    rfl
  rw [hrooted]
  apply List.splitOn_intercalate
  · intro segment hsegment
    rcases List.mem_cons.mp hsegment with rfl | hsegment
    · exact List.not_mem_nil
    · exact hslash segment hsegment
  · exact List.cons_ne_nil _ _

theorem rooted_injective
    {left right : List Bytes} (hleft : left ≠ []) (hright : right ≠ [])
    (hleftSlash : ∀ segment ∈ left, slash ∉ segment)
    (hrightSlash : ∀ segment ∈ right, slash ∉ segment)
    (hsame : rooted left = rooted right) :
    left = right := by
  have hsplit := splitOn_rooted hleft hleftSlash
  rw [hsame, splitOn_rooted hright hrightSlash] at hsplit
  exact (List.cons.inj hsplit).2.symm

/-- A segment by which a path steps nowhere or up. -/
def IsDots (segment : Bytes) : Prop :=
  segment = bytesOf "." ∨ segment = bytesOf ".."

instance (segment : Bytes) : Decidable (IsDots segment) :=
  inferInstanceAs (Decidable (_ ∨ _))

theorem cleanSegment_of_plain
    {segment : Bytes} (hne : segment ≠ []) (hdots : ¬ IsDots segment)
    (kept : List Bytes) :
    cleanSegment kept segment = segment :: kept := by
  unfold IsDots at hdots
  rw [not_or] at hdots
  simp [cleanSegment, hne, hdots.1, hdots.2]

theorem length_cleanSegment_of_dots
    {segment : Bytes} (hdots : IsDots segment) (kept : List Bytes) :
    (cleanSegment kept segment).length ≤ kept.length := by
  rcases hdots with rfl | rfl
  · simp [cleanSegment]
  · have hnil : bytesOf ".." ≠ [] := by decide
    have hdot : bytesOf ".." ≠ bytesOf "." := by decide
    simp [cleanSegment, hnil, hdot]

theorem length_foldl_cleanSegment_le
    (segments kept : List Bytes) (hne : ∀ segment ∈ segments, segment ≠ []) :
    (segments.foldl cleanSegment kept).length ≤
      kept.length + segments.length := by
  induction segments generalizing kept with
  | nil => simp
  | cons segment rest ih =>
      obtain ⟨hsegment, hrest⟩ := List.forall_mem_cons.mp hne
      have hle := ih (cleanSegment kept segment) hrest
      rw [List.foldl_cons, List.length_cons]
      by_cases hdots : IsDots segment
      · have hshort := length_cleanSegment_of_dots hdots kept
        omega
      · rw [cleanSegment_of_plain hsegment hdots, List.length_cons] at hle
        rw [cleanSegment_of_plain hsegment hdots]
        omega

theorem foldl_cleanSegment_of_plain
    {segments : List Bytes} (kept : List Bytes)
    (hplain : ∀ segment ∈ segments, segment ≠ [] ∧ ¬ IsDots segment) :
    segments.foldl cleanSegment kept = segments.reverse ++ kept := by
  induction segments generalizing kept with
  | nil => rfl
  | cons segment rest ih =>
      obtain ⟨hsegment, hrest⟩ := List.forall_mem_cons.mp hplain
      rw [List.foldl_cons, cleanSegment_of_plain hsegment.1 hsegment.2,
        ih _ hrest]
      simp

theorem length_foldl_cleanSegment_lt
    {segments : List Bytes} (kept : List Bytes)
    (hne : ∀ segment ∈ segments, segment ≠ [])
    (hdots : ∃ segment ∈ segments, IsDots segment) :
    (segments.foldl cleanSegment kept).length <
      kept.length + segments.length := by
  induction segments generalizing kept with
  | nil =>
      obtain ⟨_, hmem, -⟩ := hdots
      cases hmem
  | cons segment rest ih =>
      obtain ⟨hsegment, hrest⟩ := List.forall_mem_cons.mp hne
      rw [List.foldl_cons, List.length_cons]
      by_cases hfirst : IsDots segment
      · have hshort := length_cleanSegment_of_dots hfirst kept
        have hle := length_foldl_cleanSegment_le rest
          (cleanSegment kept segment) hrest
        omega
      · have hlater : ∃ other ∈ rest, IsDots other := by
          obtain ⟨other, hmem, hother⟩ := hdots
          rcases List.mem_cons.mp hmem with rfl | hmem
          · exact absurd hother hfirst
          · exact ⟨other, hmem, hother⟩
        have hlt := ih (cleanSegment kept segment) hrest hlater
        rw [cleanSegment_of_plain hsegment hfirst, List.length_cons] at hlt
        rw [cleanSegment_of_plain hsegment hfirst]
        omega

/-- The segments that are left are among those of the path. -/
theorem mem_foldl_cleanSegment
    {segments kept : List Bytes} {segment : Bytes}
    (hmem : segment ∈ segments.foldl cleanSegment kept) :
    segment ∈ kept ∨ segment ∈ segments := by
  induction segments generalizing kept with
  | nil => exact Or.inl hmem
  | cons first rest ih =>
      rcases ih hmem with hkept | hrest
      · unfold cleanSegment at hkept
        split_ifs at hkept with hempty hup
        · exact Or.inl hkept
        · exact Or.inl (List.mem_of_mem_tail hkept)
        · rcases List.mem_cons.mp hkept with rfl | hkept
          · exact Or.inr List.mem_cons_self
          · exact Or.inl hkept
      · exact Or.inr (List.mem_cons_of_mem first hrest)

theorem getLast?_rooted
    {segments : List Bytes} (hne : segments ≠ [])
    (hsegments : ∀ segment ∈ segments, segment ≠ [] ∧ slash ∉ segment) :
    (rooted segments).getLast? ≠ some slash := by
  have hlast : ∀ segments : List Bytes, segments ≠ [] →
      (∀ segment ∈ segments, segment ≠ [] ∧ slash ∉ segment) →
      ∃ byte, ([slash].intercalate segments).getLast? = some byte ∧
        byte ≠ slash := by
    intro segments hne hsegments
    induction segments with
    | nil => exact absurd rfl hne
    | cons segment rest ih =>
        obtain ⟨hsegment, hrest⟩ := List.forall_mem_cons.mp hsegments
        by_cases hnil : rest = []
        · rw [hnil, List.intercalate_singleton]
          have hget := List.getLast?_eq_some_getLast hsegment.1
          refine ⟨_, hget, ?_⟩
          intro hsame
          exact hsegment.2 (hsame ▸ List.getLast_mem hsegment.1)
        · obtain ⟨byte, hbyte, hother⟩ := ih hnil hrest
          refine ⟨byte, ?_, hother⟩
          rw [List.intercalate_cons_of_ne_nil hnil, List.getLast?_append,
            hbyte]
          rfl
  obtain ⟨byte, hbyte, hother⟩ := hlast segments hne hsegments
  unfold rooted
  rw [List.getLast?_cons, hbyte]
  simpa using hother

/-- A path is left alone by cleaning exactly when none of its segments is
dots. -/
theorem cleanPath_rooted_iff
    {segments : List Bytes} (hne : segments ≠ [])
    (hsegments : ∀ segment ∈ segments, segment ≠ [] ∧ slash ∉ segment) :
    cleanPath (rooted segments) = rooted segments ↔
      ∀ segment ∈ segments, ¬ IsDots segment := by
  have hsplit := splitOn_rooted hne fun segment hmem =>
    (hsegments segment hmem).2
  have hclean : cleanPath (rooted segments) =
      rooted (segments.foldl cleanSegment []).reverse := by
    unfold cleanPath
    simp only [hsplit, List.foldl_cons]
    rw [if_neg (fun hboth => getLast?_rooted hne hsegments hboth.1)]
    rfl
  rw [hclean]
  constructor
  · intro hsame segment hmem hdots
    have hlt := length_foldl_cleanSegment_lt []
      (fun other hother => (hsegments other hother).1) ⟨segment, hmem, hdots⟩
    by_cases hnil : segments.foldl cleanSegment [] = []
    · -- Nothing is left, and the path is only a slash.
      have hlength := congrArg (fun path => path.splitOn slash) hsame
      simp only [hnil, hsplit] at hlength
      rcases segments with _ | ⟨first, rest⟩
      · exact hne rfl
      · have hfirst := (hsegments first List.mem_cons_self).1
        have hempty : (rooted ([] : List Bytes).reverse).splitOn slash =
            [[], []] := by decide
        rw [hempty] at hlength
        exact hfirst (List.cons.inj (List.cons.inj hlength).2).1.symm
    · have hkept := rooted_injective (by simpa using hnil) hne
        (fun other hother => by
          rcases mem_foldl_cleanSegment (List.mem_reverse.mp hother) with
            hother | hother
          · cases hother
          · exact (hsegments other hother).2)
        (fun other hother => (hsegments other hother).2) hsame
      have hlength := congrArg List.length hkept
      rw [List.length_reverse] at hlength
      simp only [List.length_nil, Nat.zero_add] at hlt
      omega
  · intro hplain
    rw [foldl_cleanSegment_of_plain [] fun segment hmem =>
      ⟨(hsegments segment hmem).1, hplain segment hmem⟩]
    simp

/-! ## Resources -/

namespace Resource

theorem segments_ne_nil (resource : Resource) : resource.segments ≠ [] := by
  cases resource <;> simp [segments, before]

theorem path_eq_rooted (resource : Resource) :
    resource.path = rooted (resource.segments.map pathEscape) := rfl

theorem splitOn_path (resource : Resource) :
    resource.path.splitOn slash =
      [] :: resource.segments.map pathEscape := by
  apply splitOn_rooted
  · simpa using resource.segments_ne_nil
  · intro segment hmem
    obtain ⟨original, -, rfl⟩ := List.mem_map.mp hmem
    exact slash_notMem_pathEscape original

theorem length_before (resource : Resource) :
    resource.before.length = 4 := by
  cases resource <;> rfl

/-- The first four segments say what is asked for, the others of whom. -/
theorem segments_injective : Function.Injective segments := by
  intro left right hsame
  unfold segments at hsame
  rw [List.append_assoc, List.append_assoc] at hsame
  obtain ⟨hbefore, hafter⟩ :=
    List.append_inj hsame (by rw [length_before, length_before])
  cases left <;> cases right <;>
    simp only [before, id, after] at hbefore hafter <;>
    first
      | rfl
      | exact absurd hbefore (by decide)
      | simp_all

theorem path_injective : Function.Injective path := by
  intro left right hsame
  have hsplit := left.splitOn_path
  rw [hsame, right.splitOn_path] at hsplit
  have hsegments := (List.cons.inj hsplit).2
  exact segments_injective
    (List.map_injective_iff.mpr pathEscape_injective hsegments).symm

/-- The chain reads the segments back. -/
theorem unescape_segments (resource : Resource) :
    (resource.path.splitOn slash).map unescape =
      some [] :: resource.segments.map some := by
  rw [splitOn_path, List.map_cons, List.map_map]
  congr 1
  apply List.map_congr_left
  intro segment _
  exact unescape_pathEscape segment

theorem fixed_segments
    (resource : Resource) {segment : Bytes}
    (hmem : segment ∈ resource.before ∨ segment ∈ resource.after) :
    segment ≠ [] ∧ ¬ IsDots segment := by
  have hbefore : ∀ segment ∈ resource.before,
      segment ≠ [] ∧ ¬ IsDots segment := by
    cases resource <;> simp only [before] <;> decide
  have hafter : ∀ segment ∈ resource.after,
      segment ≠ [] ∧ ¬ IsDots segment := by
    cases resource <;> simp only [after] <;> decide
  rcases hmem with hmem | hmem
  · exact hbefore segment hmem
  · exact hafter segment hmem

theorem isDots_pathEscape_iff (segment : Bytes) :
    IsDots (pathEscape segment) ↔ IsDots segment := by
  unfold IsDots
  rw [pathEscape_eq_iff (by decide +kernel), pathEscape_eq_iff (by decide +kernel)]

/-- The path of a resource has no steps in it unless its id is one. -/
theorem cleanPath_path_iff
    {resource : Resource} (hnamed : resource.Named) :
    cleanPath resource.path = resource.path ↔
      ∀ id ∈ resource.id, ¬ IsDots id := by
  have hsegments : ∀ segment ∈ resource.segments,
      segment ∈ resource.id ∨ segment ∈ resource.before ∨
        segment ∈ resource.after := by
    intro segment hmem
    simp only [segments, List.mem_append, Option.mem_toList] at hmem
    tauto
  have hne : ∀ segment ∈ resource.segments.map pathEscape,
      segment ≠ [] ∧ slash ∉ segment := by
    intro segment hmem
    obtain ⟨original, horiginal, rfl⟩ := List.mem_map.mp hmem
    refine ⟨?_, slash_notMem_pathEscape original⟩
    rw [ne_eq, pathEscape_eq_iff (fun _ hnil => absurd hnil List.not_mem_nil)]
    rcases hsegments original horiginal with hid | hfixed
    · exact hnamed original hid
    · exact (resource.fixed_segments hfixed).1
  rw [path_eq_rooted,
    cleanPath_rooted_iff (by simpa using resource.segments_ne_nil) hne]
  constructor
  · intro hplain id hid
    rw [← isDots_pathEscape_iff]
    apply hplain
    apply List.mem_map_of_mem
    simp only [segments, List.mem_append, Option.mem_toList]
    exact Or.inl (Or.inr hid)
  · intro hids segment hmem
    obtain ⟨original, horiginal, rfl⟩ := List.mem_map.mp hmem
    rw [isDots_pathEscape_iff]
    rcases hsegments original horiginal with hid | hfixed
    · exact hids original hid
    · exact (resource.fixed_segments hfixed).2

end Resource

/-! ## What is passed on -/

section Paths

variable (id : Bytes)

theorem delegations_path :
    bytesOf "/cosmos/staking/v1beta1/delegations/" ++ pathEscape id =
      (Resource.delegations id).path := by
  exact congrArg (bytesOf "/cosmos/staking/v1beta1/delegations/" ++ ·)
    (List.append_nil (pathEscape id)).symm

theorem rewards_path :
    bytesOf "/cosmos/distribution/v1beta1/delegators/" ++ pathEscape id ++
        bytesOf "/rewards" =
      (Resource.rewards id).path := by
  rw [List.append_assoc]
  rfl

theorem proposal_path :
    bytesOf "/cosmos/gov/v1beta1/proposals/" ++ pathEscape id =
      (Resource.proposal id).path := by
  exact congrArg (bytesOf "/cosmos/gov/v1beta1/proposals/" ++ ·)
    (List.append_nil (pathEscape id)).symm

theorem votes_path :
    bytesOf "/cosmos/gov/v1beta1/proposals/" ++ pathEscape id ++
        bytesOf "/votes" =
      (Resource.votes id).path := by
  rw [List.append_assoc]
  rfl

theorem tx_path :
    bytesOf "/cosmos/tx/v1beta1/txs/" ++ pathEscape id =
      (Resource.tx id).path := by
  exact congrArg (bytesOf "/cosmos/tx/v1beta1/txs/" ++ ·)
    (List.append_nil (pathEscape id)).symm

end Paths

/-- The request by which a handler asks the chain for a resource. -/
def upstreamFor (request : ChainRequest) (resource : Resource)
    (body : Bytes) : UpstreamRequest where
  method := resource.method
  path := resource.path
  rawQuery := UrlValues.encode (UrlValues.parseQuery request.rawQuery)
  body := body
  accept := "application/json"
  contentType := if 0 < body.length then some "application/json" else none

theorem proxyChainRequest_of_resource
    {request : ChainRequest} {resource : Resource}
    (hget : resource.method = "GET") (hmethod : request.method = "GET")
    {path : Bytes} (hpath : path = resource.path) :
    proxyChainRequest request "GET" path =
      .forwarded (upstreamFor request resource []) := by
  unfold proxyChainRequest
  rw [if_neg (not_not.mpr hmethod), hpath, upstreamFor, hget]
  rfl

theorem proxyChainRequest_forwarded
    {request : ChainRequest} {upstream : UpstreamRequest}
    {resource : Resource} (hget : resource.method = "GET") {path : Bytes}
    (hpath : path = resource.path)
    (hforwarded : proxyChainRequest request "GET" path =
      .forwarded upstream) :
    request.method = resource.method ∧
      upstream = upstreamFor request resource [] := by
  by_cases hmethod : request.method = "GET"
  · rw [proxyChainRequest_of_resource hget hmethod hpath,
      Handled.forwarded.injEq] at hforwarded
    exact ⟨hmethod.trans hget.symm, hforwarded.symm⟩
  · simp [proxyChainRequest, hmethod] at hforwarded

/-- The request that is sent carries a body only where transactions are
posted, and then the one that was received. -/
def CarriesBody (request : ChainRequest) (resource : Resource)
    (body : Bytes) : Prop :=
  if resource = .txs then
    request.body = some body ∧ trimSpaceBytes body ≠ []
  else body = []

theorem trimSuffix_append (ending bytes : Bytes) :
    trimSuffix ending (bytes ++ ending) = bytes := by
  unfold trimSuffix
  rw [if_pos (List.isSuffixOf_iff_suffix.mpr (List.suffix_append _ _)),
    List.length_append, Nat.add_sub_cancel, List.take_left]

theorem ChainRoute.Names.eq
    {route : ChainRoute} {path : Bytes} {resource other : Resource}
    (hnames : route.Names path resource) (hother : route.Names path other) :
    other = resource := by
  cases hnames with
  | validators => cases hother; rfl
  | proposals => cases hother; rfl
  | txs => cases hother; rfl
  | delegations => cases hother; rfl
  | tx => cases hother; rfl
  | rewards htext =>
      cases hother with
      | rewards htext' =>
          rw [htext, List.append_left_inj] at htext'
          rw [htext']
  | votes htext =>
      cases hother with
      | votes htext' =>
          rw [htext, List.append_left_inj] at htext'
          rw [htext']
      | proposal hnot => exact absurd ⟨_, htext.symm⟩ hnot
  | proposal hnot =>
      cases hother with
      | votes htext => exact absurd ⟨_, htext.symm⟩ hnot
      | proposal => rfl

theorem notMem_of_mem_splitOn
    {bytes piece : Bytes} {mark : UInt8} (hpiece : piece ∈ bytes.splitOn mark) :
    mark ∉ piece := by
  induction bytes generalizing piece with
  | nil =>
      rw [List.splitOn_nil, List.mem_singleton] at hpiece
      rw [hpiece]
      exact List.not_mem_nil
  | cons byte rest ih =>
      rw [List.splitOn_cons_eq_if_modifyHead] at hpiece
      split_ifs at hpiece with hmark
      · rcases List.mem_cons.mp hpiece with rfl | hpiece
        · exact List.not_mem_nil
        · exact ih hpiece
      · obtain ⟨first, others, hsplit⟩ :=
          List.exists_cons_of_ne_nil (List.splitOn_ne_nil mark rest)
        rw [hsplit, List.modifyHead_cons] at hpiece
        rw [hsplit] at ih
        rcases List.mem_cons.mp hpiece with rfl | hpiece
        · have hfirst := ih List.mem_cons_self
          have hbyte : mark ≠ byte := fun hsame => hmark (by simp [hsame])
          exact List.not_mem_cons_of_ne_of_not_mem hbyte hfirst
        · exact ih (List.mem_cons_of_mem _ hpiece)

theorem exists_resource
    {route : ChainRoute} {request : ChainRequest}
    {upstream : UpstreamRequest}
    (hforwarded : route.handle request = .forwarded upstream) :
    ∃ resource body, route.Names request.path resource ∧ resource.Named ∧
      CarriesBody request resource body ∧
      request.method = resource.method ∧
      upstream = upstreamFor request resource body := by
  have hfound : ∀ (resource : Resource) (path : Bytes),
      route.Names request.path resource → resource.Named →
      resource.method = "GET" → path = resource.path →
      proxyChainRequest request "GET" path = .forwarded upstream →
      resource ≠ .txs →
      ∃ resource body, route.Names request.path resource ∧ resource.Named ∧
        CarriesBody request resource body ∧
        request.method = resource.method ∧
        upstream = upstreamFor request resource body := by
    intro resource path hnames hnamed hget hpath hproxy hother
    obtain ⟨hmethod, hupstream⟩ :=
      proxyChainRequest_forwarded hget hpath hproxy
    exact ⟨resource, [], hnames, hnamed, (if_neg hother).mpr rfl, hmethod,
      hupstream⟩
  have hid : ∀ {id other : Bytes}, id ≠ [] → other ∈ some id → other ≠ [] := by
    intro id other hne hmem
    rwa [← Option.some.inj hmem]
  cases route with
  | validators =>
      exact hfound .validators _ .validators (fun _ hmem => nomatch hmem) rfl
        rfl hforwarded (by decide)
  | delegations =>
      simp only [ChainRoute.handle, handleChainDelegations] at hforwarded
      split_ifs at hforwarded with hempty
      exact hfound (.delegations _) _ .delegations (fun _ => hid hempty) rfl
        (delegations_path _) hforwarded (by simp)
  | rewards =>
      simp only [ChainRoute.handle, handleChainRewards] at hforwarded
      split_ifs at hforwarded with hempty
      split at hforwarded
      · next delegator last hsplit =>
          split_ifs at hforwarded with hparts
          have hdelegator : delegator ≠ [] := by
            rintro rfl
            exact hparts (Or.inl rfl)
          have htext : textBelow "/v1/chain/distribution/delegators/"
              request.path = delegator ++ bytesOf "/rewards" := by
            have hjoined := congrArg [slash].intercalate hsplit
            rw [List.intercalate_splitOn,
              not_not.mp (not_or.mp hparts).2] at hjoined
            exact hjoined
          have hslash : slash ∉ delegator :=
            notMem_of_mem_splitOn (hsplit ▸ List.mem_cons_self)
          exact hfound (.rewards delegator) _ (.rewards htext hslash)
            (fun _ => hid hdelegator) rfl (rewards_path _) hforwarded (by simp)
      · cases hforwarded
  | govProposals =>
      exact hfound .proposals _ .proposals (fun _ hmem => nomatch hmem) rfl rfl
        hforwarded (by decide)
  | govProposalByID =>
      simp only [ChainRoute.handle, handleChainGovProposalByID] at hforwarded
      split_ifs at hforwarded with hempty hvotes hnone hnone
      · obtain ⟨text, htext⟩ := List.isSuffixOf_iff_suffix.mp hvotes
        rw [← htext, trimSuffix_append] at hnone hforwarded
        exact hfound (.votes _) _ (.votes htext.symm) (fun _ => hid hnone) rfl
          (votes_path _) hforwarded (by simp)
      · have hnot := hvotes ∘ List.isSuffixOf_iff_suffix.mpr
        exact hfound (.proposal _) _ (.proposal hnot) (fun _ => hid hnone) rfl
          (proposal_path _) hforwarded (by simp)
  | txByHash =>
      simp only [ChainRoute.handle, handleChainTxByHash] at hforwarded
      split_ifs at hforwarded with hempty
      exact hfound (.tx _) _ .tx (fun _ => hid hempty) rfl (tx_path _)
        hforwarded (by simp)
  | txBroadcast =>
      simp only [ChainRoute.handle, handleChainTxBroadcast] at hforwarded
      split_ifs at hforwarded with hmethod
      split at hforwarded
      · cases hforwarded
      · next body hbody =>
          split_ifs at hforwarded with hempty
          refine ⟨.txs, body, .txs, (fun _ hmem => nomatch hmem), ?_,
            not_not.mp hmethod, ?_⟩
          · exact (if_pos rfl).mpr ⟨hbody, hempty⟩
          · exact (Handled.forwarded.inj hforwarded).symm

/-- A request that is passed on asks the chain for the one resource that its
path names to the handler, by the method of that resource, and every other
resource has another path.  The chain reads the segments of the resource back,
and the path is in its shortest form unless the id is one or two dots. -/
theorem forwarded_request_confined
    {route : ChainRoute} {request : ChainRequest}
    {upstream : UpstreamRequest}
    (hforwarded : route.handle request = .forwarded upstream) :
    ∃ resource : Resource,
      (∀ other, route.Names request.path other ↔ other = resource) ∧
      resource.Named ∧
      request.method = resource.method ∧ upstream.method = resource.method ∧
      upstream.path = resource.path ∧
      (∀ other : Resource, other.path = upstream.path → other = resource) ∧
      (upstream.path.splitOn slash).map unescape =
        some [] :: resource.segments.map some ∧
      (cleanPath upstream.path = upstream.path ↔
        ∀ id ∈ resource.id, ¬ IsDots id) ∧
      CarriesBody request resource upstream.body := by
  obtain ⟨resource, body, hnames, hnamed, hbody, hmethod, rfl⟩ :=
    exists_resource hforwarded
  have hone : ∀ other, route.Names request.path other ↔ other = resource :=
    fun other => ⟨fun hother => hnames.eq hother, fun hsame => hsame ▸ hnames⟩
  exact ⟨resource, hone, hnamed, hmethod, rfl, rfl,
    fun _ hsame => Resource.path_injective hsame, resource.unescape_segments,
    resource.cleanPath_path_iff hnamed, hbody⟩

/-- A hash of two dots is passed on as it is. -/
def dotsRequest : ChainRequest where
  method := "GET"
  path := bytesOf "/v1/chain/txs/.."
  rawQuery := []
  body := some []

theorem forwarded_request_confined_dots :
    ∃ resource : Resource,
      (∀ other, ChainRoute.txByHash.Names dotsRequest.path other ↔
        other = resource) ∧
      resource.path = bytesOf "/cosmos/tx/v1beta1/txs/.." ∧
      ¬ cleanPath resource.path = resource.path := by
  have hforwarded : ChainRoute.txByHash.handle dotsRequest =
      .forwarded (upstreamFor dotsRequest (.tx (bytesOf "..")) []) := by
    decide
  obtain ⟨resource, hnames, -, -, -, hpath, hunique, -, hclean, -⟩ :=
    forwarded_request_confined hforwarded
  have hresource := hunique (.tx (bytesOf "..")) rfl
  refine ⟨resource, hnames, hpath.symm.trans (by decide), ?_⟩
  rw [← hpath, hclean, ← hresource]
  intro hplain
  exact hplain (bytesOf "..") rfl (Or.inr rfl)

/-! ## Requests for plain ids -/

/-- The bytes of a text without a slash and without a space at its ends. -/
def IsPlain (id : Bytes) : Prop :=
  ∃ text : List Char, Utf8.encode text = id ∧ text ≠ [] ∧
    (∀ c ∈ text.head?, isSpace c = false) ∧
    (∀ c ∈ text.getLast?, isSpace c = false) ∧ '/' ∉ text

theorem IsPlain.ne_nil {id : Bytes} (hid : IsPlain id) : id ≠ [] := by
  obtain ⟨text, rfl, hne, -⟩ := hid
  intro hnil
  exact hne (Utf8.encode_injective (hnil.trans rfl))

theorem IsPlain.slash_notMem {id : Bytes} (hid : IsPlain id) : slash ∉ id := by
  obtain ⟨text, rfl, -, -, -, hslash⟩ := hid
  rw [Utf8.mem_encode_iff (by decide)]
  exact hslash

theorem IsPlain.trim {id : Bytes} (hid : IsPlain id) :
    trimSpaceBytes id = id := by
  obtain ⟨text, rfl, -, hfirst, hlast, -⟩ := hid
  exact trimSpaceBytes_encode hfirst hlast

theorem IsPlain.trim_append
    {id : Bytes} (hid : IsPlain id) {ending : List Char} (hne : ending ≠ [])
    (hending : ∀ c ∈ ending.getLast?, isSpace c = false) :
    trimSpaceBytes (id ++ Utf8.encode ending) = id ++ Utf8.encode ending := by
  obtain ⟨text, rfl, htext, hfirst, -, -⟩ := hid
  rw [← Utf8.encode_append]
  apply trimSpaceBytes_encode
  · rwa [List.head?_append_of_ne_nil _ htext]
  · rwa [List.getLast?_append_of_ne_nil _ hne]

namespace Resource

def route : Resource → ChainRoute
  | validators => .validators
  | proposals => .govProposals
  | txs => .txBroadcast
  | delegations _ => .delegations
  | rewards _ => .rewards
  | proposal _ | votes _ => .govProposalByID
  | tx _ => .txByHash

/-- The path of the API for the resource. -/
def apiPath : Resource → Bytes
  | validators => bytesOf "/v1/chain/staking/validators"
  | proposals => bytesOf "/v1/chain/gov/proposals"
  | txs => bytesOf "/v1/chain/txs"
  | delegations id => bytesOf "/v1/chain/staking/delegations/" ++ id
  | rewards id =>
      bytesOf "/v1/chain/distribution/delegators/" ++ (id ++ bytesOf "/rewards")
  | proposal id => bytesOf "/v1/chain/gov/proposals/" ++ id
  | votes id => bytesOf "/v1/chain/gov/proposals/" ++ (id ++ bytesOf "/votes")
  | tx id => bytesOf "/v1/chain/txs/" ++ id

/-- A request for the resource. -/
structure AskedBy (resource : Resource) (request : ChainRequest) : Prop where
  path : request.path = resource.apiPath
  method : request.method = resource.method
  plain : ∀ id ∈ resource.id, IsPlain id
  body : ∃ body, CarriesBody request resource body

end Resource

theorem trimSuffix_slash
    {id : Bytes} (hid : slash ∉ id) : trimSuffix [slash] id = id := by
  unfold trimSuffix
  rw [if_neg]
  intro hsuffix
  apply hid
  exact (List.isSuffixOf_iff_suffix.mp hsuffix).subset List.mem_cons_self

/-- Every resource with a plain id can be asked for. -/
theorem handle_of_askedBy
    {resource : Resource} {request : ChainRequest}
    (hasked : resource.AskedBy request) {body : Bytes}
    (hbody : CarriesBody request resource body) :
    resource.route.handle request =
      .forwarded (upstreamFor request resource body) := by
  obtain ⟨hpath, hmethod, hplain, -⟩ := hasked
  have hempty : resource ≠ .txs → body = [] := by
    intro hother
    exact (if_neg hother).mp hbody
  cases resource with
  | validators =>
      rw [hempty (by decide)]
      exact proxyChainRequest_of_resource rfl hmethod rfl
  | proposals =>
      rw [hempty (by decide)]
      exact proxyChainRequest_of_resource rfl hmethod rfl
  | txs =>
      obtain ⟨hread, hne⟩ := (if_pos rfl).mp hbody
      have hpost : ¬ request.method ≠ "POST" := not_not.mpr hmethod
      show handleChainTxBroadcast request = _
      unfold handleChainTxBroadcast
      rw [if_neg hpost, hread]
      exact if_neg hne
  | delegations id =>
      have hid := hplain id rfl
      rw [hempty (by simp)]
      show handleChainDelegations request = _
      unfold handleChainDelegations
      rw [hpath, Resource.apiPath, trimPrefix_append, hid.trim]
      exact (if_neg hid.ne_nil).trans
        (proxyChainRequest_of_resource rfl hmethod (delegations_path id))
  | tx id =>
      have hid := hplain id rfl
      rw [hempty (by simp)]
      show handleChainTxByHash request = _
      unfold handleChainTxByHash
      rw [hpath, Resource.apiPath, trimPrefix_append, hid.trim]
      exact (if_neg hid.ne_nil).trans
        (proxyChainRequest_of_resource rfl hmethod (tx_path id))
  | rewards id =>
      have hid := hplain id rfl
      have htrim : trimSpaceBytes (id ++ bytesOf "/rewards") =
          id ++ bytesOf "/rewards" :=
        hid.trim_append (show "/rewards".toList ≠ [] by decide)
          (by rintro _ ⟨⟩; rfl)
      have hsplit : (id ++ bytesOf "/rewards").splitOn slash =
          [id, bytesOf "rewards"] := by
        have hjoin : id ++ bytesOf "/rewards" =
            [slash].intercalate [id, bytesOf "rewards"] := by
          rw [List.intercalate_cons_cons, List.intercalate_singleton,
            List.append_assoc]
          rfl
        rw [hjoin]
        apply List.splitOn_intercalate
        · intro piece hpiece
          rcases List.mem_cons.mp hpiece with rfl | hpiece
          · exact hid.slash_notMem
          · rw [List.mem_singleton.mp hpiece]
            decide
        · exact List.cons_ne_nil _ _
      rw [hempty (by simp)]
      show handleChainRewards request = _
      unfold handleChainRewards
      rw [hpath, Resource.apiPath, trimPrefix_append, htrim]
      simp only [hsplit, hid.trim]
      rw [if_neg (by simp [hid.ne_nil]), if_neg (by simp [hid.ne_nil])]
      exact proxyChainRequest_of_resource rfl hmethod (rewards_path id)
  | proposal id =>
      have hid := hplain id rfl
      have hvotes : (bytesOf "/votes").isSuffixOf id = false := by
        rw [Bool.eq_false_iff]
        intro hsuffix
        exact hid.slash_notMem
          ((List.isSuffixOf_iff_suffix.mp hsuffix).subset (by decide))
      rw [hempty (by simp)]
      show handleChainGovProposalByID request = _
      unfold handleChainGovProposalByID
      rw [hpath, Resource.apiPath, trimPrefix_append, hid.trim]
      simp only [hvotes, trimSuffix_slash hid.slash_notMem, hid.trim]
      rw [if_neg hid.ne_nil, if_neg Bool.false_ne_true, if_neg hid.ne_nil]
      exact proxyChainRequest_of_resource rfl hmethod (proposal_path id)
  | votes id =>
      have hid := hplain id rfl
      have htrim : trimSpaceBytes (id ++ bytesOf "/votes") =
          id ++ bytesOf "/votes" :=
        hid.trim_append (show "/votes".toList ≠ [] by decide)
          (by rintro _ ⟨⟩; rfl)
      have hvotes : (bytesOf "/votes").isSuffixOf (id ++ bytesOf "/votes") =
          true :=
        List.isSuffixOf_iff_suffix.mpr (List.suffix_append _ _)
      rw [hempty (by simp)]
      show handleChainGovProposalByID request = _
      unfold handleChainGovProposalByID
      rw [hpath, Resource.apiPath, trimPrefix_append, htrim]
      simp only [hvotes, trimSuffix_append, trimSuffix_slash hid.slash_notMem,
        hid.trim]
      rw [if_neg (by simp [hid.ne_nil]), if_pos trivial, if_neg hid.ne_nil]
      exact proxyChainRequest_of_resource rfl hmethod (votes_path id)

/-- A request for a resource with a plain id is passed on as a request for
that resource.  The chain parses the values of the query that came in, and two
queries are passed on alike exactly when they hold the same values. -/
theorem resource_request_forwarded
    {resource : Resource} {request : ChainRequest}
    (hasked : resource.AskedBy request) :
    ∃ upstream, resource.route.handle request = .forwarded upstream ∧
      upstream.path = resource.path ∧ upstream.method = resource.method ∧
      (∀ key, (UrlValues.parseQuery upstream.rawQuery).lookup key =
        (UrlValues.parseQuery request.rawQuery).lookup key) ∧
      ∀ rawQuery,
        (resource.route.handle { request with rawQuery } =
            .forwarded upstream ↔
          ∀ key, (UrlValues.parseQuery rawQuery).lookup key =
            (UrlValues.parseQuery request.rawQuery).lookup key) := by
  obtain ⟨body, hbody⟩ := hasked.body
  refine ⟨_, handle_of_askedBy hasked hbody, rfl, rfl, ?_, ?_⟩
  · exact UrlValues.lookup_parseQuery_encode
      (UrlValues.parseQuery_filled request.rawQuery)
  · intro rawQuery
    have hother : resource.AskedBy { request with rawQuery } :=
      ⟨hasked.path, hasked.method, hasked.plain, hasked.body⟩
    rw [handle_of_askedBy hother hbody, Handled.forwarded.injEq,
      ← UrlValues.encode_eq_iff (UrlValues.parseQuery_filled rawQuery)
        (UrlValues.parseQuery_filled request.rawQuery)]
    constructor
    · intro hsame
      exact congrArg UpstreamRequest.rawQuery hsame
    · intro hsame
      show UpstreamRequest.mk _ _ (UrlValues.encode _) _ _ _ = _
      rw [hsame]
      rfl

/-- The votes on a proposal, asked for with two parameters. -/
def votesRequest : ChainRequest where
  method := "GET"
  path := bytesOf "/v1/chain/gov/proposals/12/votes"
  rawQuery := bytesOf "b=2&a=1+x"
  body := none

theorem votesRequest_askedBy :
    (Resource.votes (bytesOf "12")).AskedBy votesRequest where
  path := by decide
  method := rfl
  plain := by
    rintro _ ⟨⟩
    exact ⟨"12".toList, by decide, by decide, by rintro _ ⟨⟩; rfl,
      by rintro _ ⟨⟩; rfl, by decide⟩
  body := ⟨[], (if_neg (by simp)).mpr rfl⟩

theorem resource_request_forwarded_votes :
    ∃ upstream, handleChainGovProposalByID votesRequest =
        .forwarded upstream ∧
      upstream.path = bytesOf "/cosmos/gov/v1beta1/proposals/12/votes" ∧
      (UrlValues.parseQuery upstream.rawQuery).lookup (bytesOf "a") =
        some [bytesOf "1 x"] := by
  obtain ⟨upstream, hhandle, hpath, -, hvalues, -⟩ :=
    resource_request_forwarded votesRequest_askedBy
  refine ⟨upstream, hhandle, hpath.trans (by decide), ?_⟩
  rw [hvalues]
  decide +kernel

end SoulonWallet.Api
