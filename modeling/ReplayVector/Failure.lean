import ReplayVector.Chain.Message
import ReplayVector.Chain.Tipset

/-!
# Why something failed

A failure is a chain of causes, the outermost first: each says what was being done when the next
one arose. Causes that stem from a format or a device rather than from a rule of this library are
`unworded`. One kind of failure is no chain: a sum of words that does not fit, or an engine that
has no rules for a network version, ends a run at once and is never given a context.
-/

namespace ReplayVector

/-- One link of a chain of causes. -/
inductive Cause where
  /-- A fault of a format or a device, without a wording of its own. -/
  | unworded
  /-- A fault in the words of whoever reports it. -/
  | reported (text : String)
  /-- A text or value was refused by the reader of a type. -/
  | refused (refusal : Json.Refusal)
  | inconsistentTipset (defect : TipsetDefect)
  | emptyTipsetKey
  -- Blocks and archives
  | inlineMismatch (c : Cid)
  | digestMismatch (c actual : Cid)
  | fetchingBlock (c : Cid)
  | missingBlock (c : Cid)
  | decodingLinks (c : Cid)
  | headerBlock
  | firstBlock
  -- State
  | creatingTree
  | loadingTree (root : Cid)
  | flushingTree
  | missingRoot (root : Cid)
  | resolvingAddress (a : Address)
  | loadingActor (id : ActorId)
  | missingRegistry
  | loadingAddressMap
  | readingAddressMap
  | writingAddressMap
  | storingAddressMap
  | creatingAddressMap
  | mappingId (a : Address)
  -- Execution
  | uncoveredGas (sender : Address)
  | missingBeneficiary
  | missingFeeRecipient
  | missingActor (a : Address)
  | oldNetwork (version : UInt32)
  | creatingMachine
  | executingMessage
  | tipsetLookup (epoch : Epoch)
  -- The chain
  | unknownTipset (key : TipsetKey)
  | unknownMessage (c : Cid)
  | unknownBlock (c : Cid)
  | emptyChain
  | aboveStart
  | nothingAtOrBelow (epoch : Epoch)
  | noParents (key : TipsetKey)
  -- Locating a message
  | fetchingMessage (c : Cid)
  | locatingMessage
  | messageNotOnChain (c : Cid)
  | fetchingInclusion
  | gettingBlock
  | gettingExecution
  | gettingInclusion
  | notParent (inclusion execution : TipsetKey)
  -- A run
  | gettingSupply
  | gettingNetworkVersion
  | gettingParentMessages
  | replayingPrecursor (index : Nat) (c : Cid)
  | tracingMessage
  | noReadTracing
  | maskingTree (root : Cid)
  | writingTracedArchive
  | writingMaskedArchive
  | gettingReceipt
  | gettingNetworkName
  | gettingNodeVersion
  | loadingArchive
  | emptyArchive
  | replayingArchive
  | replayDiffers (postroot : Cid) (exitCode : ExitCode) (expected : Cid) (expectedCode : ExitCode)
  -- Files
  | creatingDirectory (path : String)
  | creatingTemporary (directory : String)
  | persisting (path : String)
  -- Nodes
  | callFailed (method : String)
  | badToken
  | connecting (url : String)
  | initializingClient
  | badApiInfo
  | badApiVariable
  | badMultiaddr (text : String)
  | noUrl
  deriving DecidableEq

namespace Cause

/-- The wording of a cause. -/
def message? : Cause → Option String
  | unworded => none
  | reported text => some text
  | refused refusal => refusal.message?
  | inconsistentTipset defect => some defect.message
  | emptyTipsetKey => some "tipset key must not be empty"
  | inlineMismatch c => some s!"identity CID {c} does not match its data"
  | digestMismatch c actual => some s!"CID/Block mismatch for block {c}, actual: {actual}"
  | fetchingBlock c => some s!"failed to fetch block {c}"
  | missingBlock c => some s!"block {c} is missing from the store"
  | decodingLinks c => some s!"failed to decode links of {c}"
  | headerBlock => some "invalid header block"
  | firstBlock => some "invalid first block"
  | creatingTree => some "failed to create state tree"
  | loadingTree root => some s!"failed to load state tree {root}"
  | flushingTree => some "failed to flush state tree"
  | missingRoot root => some s!"state root {root} not found"
  | resolvingAddress a => some s!"failed to resolve {a}"
  | loadingActor id => some s!"failed to load actor {id.toNat}"
  | missingRegistry => some "init actor state not found"
  | loadingAddressMap => some "failed to load address map"
  | readingAddressMap => some "failed to get address entry"
  | writingAddressMap => some "failed to set map key"
  | storingAddressMap => some "failed to store address map"
  | creatingAddressMap => some "failed to create empty address map"
  | mappingId a => some s!"cannot map ID address {a}"
  | uncoveredGas sender => some s!"sender {sender} cannot cover gas"
  | missingBeneficiary => some "beneficiary actor not found"
  | missingFeeRecipient => some "fee recipient not found"
  | missingActor a => some s!"actor {a} not found"
  | oldNetwork version =>
    some s!"network version {version.toNat} is older than the engine supports"
  | creatingMachine => some "failed to create the machine"
  | executingMessage => some "message execution failed"
  | tipsetLookup epoch =>
    some s!"tipset lookups are unavailable during replay (epoch {epoch.toInt})"
  | unknownTipset key => some s!"tipset {key} not found"
  | unknownMessage c => some s!"message {c} not found"
  | unknownBlock c => some s!"block {c} not found"
  | emptyChain => some "empty chain"
  | aboveStart => some "looking for tipset with height greater than start point"
  | nothingAtOrBelow epoch => some s!"no tipset at or below height {epoch.toInt}"
  | noParents key => some s!"tipset {key} has no parents"
  | fetchingMessage c => some s!"failed to fetch message {c}"
  | locatingMessage => some "failed to locate message"
  | messageNotOnChain c => some s!"message {c} was not found on chain"
  | fetchingInclusion => some "failed to fetch the inclusion tipset"
  | gettingBlock => some "failed to get block"
  | gettingExecution => some "failed to get message execution tipset"
  | gettingInclusion => some "failed to get message inclusion tipset"
  | notParent inclusion execution =>
    some s!"tipset {inclusion} is not the parent of execution tipset {execution}"
  | gettingSupply => some "failed to get circulating supply"
  | gettingNetworkVersion => some "failed to get network version"
  | gettingParentMessages => some "failed to get parent messages"
  | replayingPrecursor index c => some s!"failed to replay precursor {index} ({c})"
  | tracingMessage => some "failed to trace message execution"
  | noReadTracing => some "the block store does not support read tracing"
  | maskingTree root => some s!"failed to mask state tree {root}"
  | writingTracedArchive => some "failed to write the traced archive"
  | writingMaskedArchive => some "failed to write the masked archive"
  | gettingReceipt => some "failed to get the message receipt"
  | gettingNetworkName => some "failed to get network name"
  | gettingNodeVersion => some "failed to get node version"
  | loadingArchive => some "failed to load the archive"
  | emptyArchive => some "the archive holds no blocks"
  | replayingArchive => some "failed to replay the target from the archive"
  | replayDiffers postroot exitCode expected expectedCode => some <|
    s!"replaying from the archive gave postroot {postroot} and exit code {exitCode.toNat}, " ++
    s!"expected {expected} and {expectedCode.toNat}"
  | creatingDirectory path => some s!"failed to create directory {path}"
  | creatingTemporary directory => some s!"failed to create temporary file in {directory}"
  | persisting path => some s!"failed to persist {path}"
  | callFailed method => some s!"{method} failed"
  | badToken => some "invalid authorization token"
  | connecting url => some s!"failed to connect to {url}"
  | initializingClient => some "couldn't initialize client"
  | badApiInfo => some "invalid API info"
  | badApiVariable => some "malformed FULLNODE_API_INFO"
  | badMultiaddr text => some s!"invalid multiaddr {text}"
  | noUrl => some "couldn't convert multiaddr to URL"

end Cause

/-- Why a computation gave no result. -/
inductive Failure where
  /-- A chain of causes, the outermost first. -/
  | because (causes : List Cause)
  /-- The run cannot go on at all. -/
  | crash
  deriving DecidableEq

namespace Failure

instance : Inhabited Failure := ⟨.because []⟩

/-- A failure with one cause. -/
def of (c : Cause) : Failure := because [c]

/-- A fault of a format or a device. -/
def unworded : Failure := of .unworded

/-- Says what was being done when a failure arose. -/
def context (c : Cause) : Failure → Failure
  | because causes => because (c :: causes)
  | crash => crash

/-- Says what failed, and drops the reasons. -/
def summarize (c : Cause) : Failure → Failure
  | because _ => of c
  | crash => crash

/-- The texts of a list, equal neighbours once. -/
def dropRepeats : List String → List String
  | [] => []
  | [t] => [t]
  | t :: u :: ts => if t = u then dropRepeats (u :: ts) else t :: dropRepeats (u :: ts)

/-- The texts of the causes that have a wording, equal neighbours once. -/
def texts : Failure → List String
  | because causes => dropRepeats (causes.filterMap Cause.message?)
  | crash => []

/-- The wording of a failure; `none` if no cause has one. -/
def message? (f : Failure) : Option String :=
  match f.texts with
  | [] => none
  | ts => some (": ".intercalate ts)

end Failure

/-- Says what was being done when a computation failed. -/
def withContext (c : Cause) (r : Except Failure α) : Except Failure α :=
  r.mapError (Failure.context c)

end ReplayVector
