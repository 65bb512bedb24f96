import ReplayVector.Proofs.Chain.Message
import ReplayVector.Proofs.Execution.Trails
import ReplayVector.Proofs.Fixture.Contents

/-!
# What a chain of two tipsets holds

A chain that is made of messages holds them, their receipts and all blocks that were computed for
its states. So it answers whatever may be asked about one of its messages, and the messages before
it lead from the state that was included to the one that it was executed on.

* `Fixture.rootAfter`: the states of a chain from message to message.
* `TwoTipsets.Makes`: what a chain was made from.
* `TwoTipsets.Target`: a message of a chain, between the states before and after it.
-/

namespace ReplayVector.Fixture

open BlockM

variable {accounts : Nat} {make : State → Option (List Message)} {state : State} {m m' : Memory}
  {named : List NamedMessage} {receipts : List Receipt} {root : Cid}

-- ---------------------------------------------------------------------------
-- Naming and executing messages
-- ---------------------------------------------------------------------------

/-- A message has the identifier that goes with it. -/
def IsNamed (n : NamedMessage) : Prop := n.message.cid? = some n.cid

/-- Naming messages that have identifiers asks for nothing. -/
private theorem mapM_named {ns : List NamedMessage} (h : ∀ n ∈ ns, IsNamed n) :
    (ns.map (·.message)).mapM Fixture.named = (pure ns : BlockM (List NamedMessage)) := by
  induction ns with
  | nil => rfl
  | cons n ns ih =>
    have hn : n.message.cid? = some n.cid := h n (List.mem_cons_self ..)
    rw [List.map_cons, List.mapM_cons, ih fun n' hn' => h n' (List.mem_cons_of_mem _ hn'),
      Fixture.named, hn]
    rfl

/-- Messages that were named, and what is left of memory. -/
private theorem of_exec_mapM_named {ms : List Message}
    (h : m.exec (ms.mapM Fixture.named) = (.ok named, m')) :
    named.map (·.message) = ms ∧ ∀ n ∈ named, IsNamed n := by
  induction ms generalizing m named with
  | nil =>
    cases h
    exact ⟨rfl, by simp⟩
  | cons message ms ih =>
    rw [List.mapM_cons] at h
    obtain ⟨n, m₁, hn, hrest⟩ := Memory.of_exec_bind_ok h
    obtain ⟨ns, m₂, hns, hdone⟩ := Memory.of_exec_bind_ok hrest
    cases hdone
    obtain ⟨hmap, hnamed⟩ := ih hns
    cases hcid : message.cid? with
    | none =>
      rw [Fixture.named, hcid] at hn
      cases hn
    | some c =>
      rw [Fixture.named, hcid] at hn
      cases hn
      refine ⟨by rw [List.map_cons, hmap], fun n hn => ?_⟩
      rcases List.mem_cons.mp hn with rfl | hn
      · exact hcid
      · exact hnamed n hn

/-- How the messages of a chain were executed. -/
structure Executes (accounts : Nat) (make : State → Option (List Message)) (state : State)
    (named : List NamedMessage) (receipts : List Receipt) (root : Cid) (m m' : Memory) : Prop where
  created : Memory.empty.exec (newState accounts) = (.ok state, m)
  made : make state = some (named.map (·.message))
  isNamed : ∀ n ∈ named, IsNamed n
  executed : m.exec (executeAll (named.map (·.message)) state.root) = (.ok (receipts, root), m')

/-- The parts of a run that executes messages. -/
theorem executes_of_exec
    (h : Memory.empty.exec (executeMessages accounts make) =
      (.ok (state, named, receipts, root), m')) :
    ∃ m, Executes accounts make state named receipts root m m' ∧
      Memory.empty.writes (executeMessages accounts make) =
        Memory.empty.writes (newState accounts) ++
          m.writes (executeAll (named.map (·.message)) state.root) := by
  obtain ⟨state', m₁, hcreated, h₁⟩ := Memory.of_exec_bind_ok h
  obtain ⟨ms, m₂, hmade, h₂⟩ := Memory.of_exec_bind_ok h₁
  obtain ⟨⟨receipts', root'⟩, m₃, hexecuted, h₃⟩ := Memory.of_exec_bind_ok h₂
  obtain ⟨ns, m₄, hnaming, hdone⟩ := Memory.of_exec_bind_ok h₃
  obtain ⟨hms, hnamed⟩ := of_exec_mapM_named hnaming
  -- the messages got their identifiers, so naming them is no computation over blocks
  have hpure : ms.mapM Fixture.named = (pure ns : BlockM (List NamedMessage)) :=
    hms ▸ mapM_named hnamed
  rw [hpure] at hnaming
  cases hnaming
  cases hdone
  cases hmake : make state with
  | none =>
    rw [hmake] at hmade
    cases hmade
  | some ms' =>
    rw [hmake] at hmade
    cases hmade
    subst hms
    refine ⟨m₁, ⟨hcreated, hmake, hnamed, hexecuted⟩, ?_⟩
    have hmade : m₁.exec (BlockM.ofOption .crash (make state)) =
        (.ok (named.map (·.message)), m₁) := by
      rw [hmake]
      rfl
    have hnone : m₁.writes (BlockM.ofOption .crash (make state)) = [] := by
      rw [hmake]
      rfl
    rw [executeMessages, Memory.writes_bind hcreated, Memory.writes_bind hmade,
      Memory.writes_bind hexecuted, hnone]
    dsimp only
    rw [hpure, pure_bind, List.nil_append]
    exact congrArg (_ ++ ·) (List.append_nil _)

/-- A run that executes messages, from its parts. -/
theorem Executes.exec (h : Executes accounts make state named receipts root m m') :
    Memory.empty.exec (executeMessages accounts make) =
      (.ok (state, named, receipts, root), m') := by
  rw [executeMessages, Memory.exec_bind, h.created]
  dsimp only
  rw [h.made, show BlockM.ofOption Failure.crash (some (named.map (·.message))) = pure _ from rfl,
    pure_bind, Memory.exec_bind, h.executed]
  dsimp only
  rw [mapM_named h.isNamed]
  rfl

/-- There are as many receipts as messages. -/
theorem length_of_executeAll {ms : List Message} {first : Cid}
    (h : m.exec (executeAll ms first) = (.ok (receipts, root), m')) :
    receipts.length = ms.length := by
  induction ms generalizing m first receipts with
  | nil =>
    cases h
    rfl
  | cons message ms ih =>
    obtain ⟨outcome, m₁, -, hrest⟩ := Memory.of_exec_bind_ok h
    obtain ⟨⟨receipts', root'⟩, m₂, hexec, hdone⟩ := Memory.of_exec_bind_ok hrest
    cases hdone
    rw [List.length_cons, List.length_cons, ih hexec]

/-- The root of the state that a chain has after the first of its messages. -/
def rootAfter (accounts : Nat) (make : State → Option (List Message)) (count : Nat) : Option Cid :=
  (TwoTipsets.ofMessages accounts fun s => (make s).map (·.take count)).toOption.map
    (·.execution.parentState)

/-- The root after some of the messages is what the rest were executed on. -/
theorem Executes.rootAfter {pre post : List NamedMessage}
    (h : Executes accounts make state (pre ++ post) receipts root m m') {receipts' : List Receipt}
    {mid : Cid} {m₁ : Memory}
    (hpre : m.exec (executeAll (pre.map (·.message)) state.root) = (.ok (receipts', mid), m₁)) :
    Fixture.rootAfter accounts make pre.length = some mid := by
  -- the chain of the first messages is made in the same way, up to there
  have hfirst : Executes accounts (fun s => (make s).map (·.take pre.length)) state pre receipts'
      mid m m₁ := by
    refine ⟨h.created, ?_, fun n hn => h.isNamed n (List.mem_append_left _ hn), hpre⟩
    rw [h.made, Option.map_some, ← List.map_take, List.take_left]
  rw [Fixture.rootAfter, TwoTipsets.ofMessages, hfirst.exec]
  rfl

/-- A message of a chain: the blocks of the chain's states, the root that it was executed on, and
its outcome. -/
structure TwoTipsets.Target (accounts : Nat) (make : State → Option (List Message))
    (objects : Memory) (blocks : Blocks) (first : Cid) (pre : List NamedMessage) (message : Message)
    (receipts : List Receipt) (preroot : Cid) (outcome : Outcome) : Prop where
  closed : blocks.Closed
  within : objects.Within blocks
  holds : objects.Holds blocks
  trail : Transfer.Trail blocks first (pre.map (·.message)) receipts preroot
  root : blocks.names preroot
  stores : ∃ base L, StateTree.Stores True objects.get? base L preroot
  applies : Transfer.Applies blocks (Fixture.execution preroot message) outcome
  before : Fixture.rootAfter accounts make pre.length = some preroot
  after : Fixture.rootAfter accounts make (pre.length + 1) = some outcome.postroot

/-- The blocks that were computed for the states of a chain link to none but each other, and are
all that is held in the end. -/
private theorem blocks_of_exec
    (hexec : Memory.empty.exec (executeMessages accounts make) =
      (.ok (state, named, receipts, root), m'))
    (hfree : CollisionFree fun b => b ∈ Memory.empty.writes (executeMessages accounts make)) :
    Blocks.Closed (fun b => b ∈ Memory.empty.writes (executeMessages accounts make)) ∧
      Blocks.names (fun b => b ∈ Memory.empty.writes (executeMessages accounts make)) state.root ∧
      m'.Within (fun b => b ∈ Memory.empty.writes (executeMessages accounts make)) ∧
      m'.Holds fun b => b ∈ Memory.empty.writes (executeMessages accounts make) := by
  obtain ⟨m, h, hwrites⟩ := executes_of_exec hexec
  have hgrows := Memory.grows_exec hfree (Memory.within_empty _) hexec fun b hb => hb
  -- a new state, and the messages after that
  have hcreated : ∀ b ∈ Memory.empty.writes (newState accounts),
      b ∈ Memory.empty.writes (executeMessages accounts make) := fun b hb => by
    rw [hwrites]
    exact List.mem_append_left _ hb
  have hstart := History.created h.created
  have hfirst := (hstart.sound (hfree.mono hcreated)).roots _ (List.mem_singleton_self _)
  obtain ⟨roots, hhistory⟩ := hstart.executeAll (List.mem_singleton_self _) h.executed
  rw [← hwrites] at hhistory
  exact ⟨(hhistory.sound hfree).closed, Blocks.names_mono hcreated hfirst, hgrows.within,
    hgrows.holds⟩

/-- Every message of a chain was executed on the root that the messages before it lead to. -/
theorem TwoTipsets.target_of_exec {pre post : List NamedMessage} {n : NamedMessage}
    (hexec : Memory.empty.exec (executeMessages accounts make) =
      (.ok (state, pre ++ n :: post, receipts, root), m'))
    (hfree : CollisionFree fun b => b ∈ Memory.empty.writes (executeMessages accounts make)) :
    ∃ receipts₁ receipts₂ preroot outcome,
      receipts = receipts₁ ++ outcome.receipt :: receipts₂ ∧
      TwoTipsets.Target accounts make m'
        (fun b => b ∈ Memory.empty.writes (executeMessages accounts make)) state.root pre n.message
        receipts₁ preroot outcome := by
  obtain ⟨hclosed, hfirst, hwithin, hholds⟩ := blocks_of_exec hexec hfree
  obtain ⟨m, h, hwrites⟩ := executes_of_exec hexec
  have hcreated := Memory.grows_exec hfree (Memory.within_empty _) h.created fun b hb => by
    rw [hwrites]
    exact List.mem_append_left _ hb
  have hws : ∀ b ∈ m.writes (executeAll ((pre ++ n :: post).map (·.message)) state.root),
      b ∈ Memory.empty.writes (executeMessages accounts make) := fun b hb => by
    rw [hwrites]
    exact List.mem_append_right _ hb
  have hlater := Memory.grows_exec hfree hcreated.within h.executed hws
  -- the messages before, the message, and those after it
  have hexecuted := h.executed
  rw [List.map_append, executeAll_append] at hexecuted hws
  obtain ⟨⟨receipts₁, preroot⟩, m₁, hpre, hgrows₁, hrest, hws₁⟩ :=
    Memory.grows_bind hfree hcreated.within hexecuted hws
  obtain ⟨⟨receipts₂, last⟩, m₂, hpost, hgrows₂, hdone, -⟩ :=
    Memory.grows_bind hfree hgrows₁.within hrest hws₁
  obtain ⟨outcome, m₃, hmessage, hgrows₃, hrest', -⟩ :=
    Memory.grows_bind hfree hgrows₁.within hpost hgrows₂.mem
  obtain ⟨⟨receipts₃, last'⟩, m₄, hpost', hdone'⟩ := Memory.of_exec_bind_ok hrest'
  cases hdone'
  cases hdone
  -- what was executed went along blocks of the chain
  obtain ⟨htrail, hnames⟩ :=
    Transfer.trail_of_exec hclosed hfree hfirst hcreated.within hpre hgrows₁.mem
  have happlies : Transfer.Applies _ (Fixture.execution preroot n.message) outcome :=
    Transfer.applies_of_exec hclosed hfree hnames hgrows₁.within (congrArg Prod.fst hmessage)
      hgrows₃.mem
  obtain ⟨base, L, hL⟩ := stores_newState hfree (Memory.within_empty _) h.created hcreated.mem
  have hstores := htrail.stores hfree hwithin hholds
    (show StateTree.Stores True m'.get? base L state.root from
      ⟨hL.actors.mono hlater.keeps, hL.registered.mono hlater.keeps⟩)
  refine ⟨receipts₁, receipts₃, preroot, outcome, rfl, hclosed, hwithin, hholds, htrail, hnames,
    hstores, happlies, h.rootAfter hpre, ?_⟩
  -- the chain of one message more
  have hafter : m.exec (executeAll ((pre ++ [n]).map (·.message)) state.root) =
      (.ok (receipts₁ ++ [outcome.receipt], outcome.postroot), m₃) := by
    rw [List.map_append, executeAll_append, Memory.exec_bind, hpre]
    dsimp only
    rw [List.map_singleton, executeAll, bind_assoc, Memory.exec_bind, hmessage]
    rfl
  have h' : Executes accounts make state ((pre ++ [n]) ++ post)
      (receipts₁ ++ outcome.receipt :: receipts₃) root m m' := by
    rw [List.append_assoc]
    exact h
  have hroot := h'.rootAfter hafter
  rw [List.length_append] at hroot
  exact hroot

-- ---------------------------------------------------------------------------
-- Messages
-- ---------------------------------------------------------------------------

/-- The blocks of messages. -/
def messageBlocks (ns : List NamedMessage) : List Block :=
  ns.filterMap fun n => n.message.encode?.map Block.ofDagCbor

/-- As long as no two blocks of messages share an identifier, different messages have different
ones. -/
theorem nodup_cids {ns : List NamedMessage} (hnamed : ∀ n ∈ ns, IsNamed n)
    (hfree : CollisionFree fun b => b ∈ messageBlocks ns) (hnodup : (ns.map (·.message)).Nodup) :
    (ns.map (·.cid)).Nodup := by
  have hblock {n : NamedMessage} (hn : n ∈ ns) : ∃ data, n.message.encode? = some data ∧
      Block.ofDagCbor data ∈ messageBlocks ns ∧ (Block.ofDagCbor data).cid = n.cid := by
    obtain ⟨data, hdata, hcid⟩ := Option.map_eq_some_iff.mp (hnamed n hn)
    refine ⟨data, hdata, List.mem_filterMap.mpr ⟨n, hn, ?_⟩, hcid⟩
    rw [hdata, Option.map_some]
  -- messages with the same identifier have the same block, which is read as one message
  refine List.pairwise_map.mpr ((List.pairwise_map.mp hnodup).imp_of_mem ?_)
  intro n n' hn hn' hne hcid
  obtain ⟨data, hdata, hmem, heq⟩ := hblock hn
  obtain ⟨data', hdata', hmem', heq'⟩ := hblock hn'
  have hsame := hfree _ _ hmem hmem' (heq.trans (hcid.trans heq'.symm))
  obtain rfl : data = data' := congrArg Block.data hsame
  have hmessage := Message.decode?_of_encode? hdata
  rw [Message.decode?_of_encode? hdata'] at hmessage
  exact hne (Option.some.inj hmessage).symm

/-- The message moves value, directly or by way of another account. The accounts may be any. -/
inductive IsPayment : Message → Prop
  | send (sender receiver : Account) (sequence value : UInt64) :
      IsPayment (Payment.send sender receiver sequence value)
  | forward {sender via receiver : Account} {sequence value : UInt64} {message : Message}
      (h : Payment.forward? sender via receiver sequence value = some message) : IsPayment message

/-- A payment is made into a message of its own. -/
theorem IsPayment.of_message? {accounts : List Account} {p : Payment} {message : Message}
    (h : p.message? accounts = some message) : IsPayment message := by
  cases p with
  | direct sender receiver sequence value =>
    obtain ⟨a, -, h⟩ := Option.bind_eq_some_iff.mp h
    obtain ⟨b, -, h⟩ := Option.bind_eq_some_iff.mp h
    cases h
    exact .send a b sequence value
  | forwarded sender via receiver sequence value =>
    obtain ⟨a, -, h⟩ := Option.bind_eq_some_iff.mp h
    obtain ⟨b, -, h⟩ := Option.bind_eq_some_iff.mp h
    obtain ⟨c, -, h⟩ := Option.bind_eq_some_iff.mp h
    exact .forward h

/-- A payment by way of another account says who receives it. -/
theorem IsPayment.beneficiary {message : Message} (h : IsPayment message)
    (hmethod : message.method = Transfer.forwardMethod) :
    ∃ a, Transfer.beneficiaryOf? message.params.val = some a := by
  cases h with
  | send sender receiver sequence value =>
    have hne : (0 : UInt64) ≠ Transfer.forwardMethod := by decide
    exact absurd hmethod hne
  | @forward sender via receiver sequence value message h =>
    obtain ⟨params, hparams, hmessage⟩ := Option.bind_eq_some_iff.mp h
    cases hmessage
    rw [Bytes.upTo?] at hparams
    split at hparams
    · cases hparams
      have hlength := receiver.robust.length_toBytes_le
      have hfits : (Cbor.bytes receiver.robust.toBytes).Fits Cbor.nesting :=
        show receiver.robust.toBytes.length < 2 ^ 64 by omega
      refine ⟨receiver.robust, ?_⟩
      rw [Transfer.beneficiaryOf?]
      simp only [Cbor.decode?_encode hfits]
      exact receiver.robust.ofBytes?_toBytes
    · cases hparams

-- ---------------------------------------------------------------------------
-- What the chain answers
-- ---------------------------------------------------------------------------

/-- What a node says about a message that a tipset executes. -/
def lookupIn (t : Tipset) (c : Cid) (receipt : Receipt) : MessageLookup :=
  { message := c, receipt, tipset := t.key, height := t.height }

/-- The chain that executes messages holds their content, where they were executed, and their
receipts. -/
private theorem addExecuted_all (t : Tipset) (l : List (NamedMessage × Receipt)) (ch : Chain) :
    l.foldl (fun ch (n, r) => ch.addExecuted t n r) ch = { ch with
      messages := (l.map fun (n, _) => (n.cid, n.message)).reverse ++ ch.messages
      lookups := (l.map fun (n, r) => (n.cid, lookupIn t n.cid r)).reverse ++ ch.lookups
      receipts := (l.map fun (n, r) => (n.cid, r)).reverse ++ ch.receipts } := by
  induction l generalizing ch with
  | nil => rfl
  | cons e l ih =>
    rw [List.foldl_cons, ih]
    simp [Chain.addExecuted, lookupIn]

/-- What a chain of two tipsets was made from. -/
structure TwoTipsets.Makes (accounts : Nat) (make : State → Option (List Message))
    (t : TwoTipsets) (state : State) (receipts : List Receipt) (root : Cid) : Prop where
  exec : Memory.empty.exec (executeMessages accounts make) =
    (.ok (state, t.messages, receipts, root), t.chain.objects)
  inclusion : t.inclusion =
    oneBlock "inclusion" inclusionHeight [nameless "grandparent"] state.root
  execution : t.execution =
    oneBlock "execution" (inclusionHeight + 1) t.inclusion.key.cids root
  chain : t.chain = { Chain.empty with
    tipsets := [t.inclusion, t.execution]
    blocks := [(t.execution.key.first, t.execution.first),
      (t.inclusion.key.first, t.inclusion.first)]
    messages := ((t.messages.zip receipts).map fun (n, _) => (n.cid, n.message)).reverse
    lookups :=
      ((t.messages.zip receipts).map fun (n, r) => (n.cid, lookupIn t.execution n.cid r)).reverse
    receipts := ((t.messages.zip receipts).map fun (n, r) => (n.cid, r)).reverse
    parentMessages := [(t.execution.key.first, t.messages)]
    objects := t.chain.objects }

/-- A chain that was made comes with the runs that made it. -/
theorem TwoTipsets.makes_of_ok {t : TwoTipsets} (h : TwoTipsets.ofMessages accounts make = .ok t) :
    ∃ state receipts root, t.Makes accounts make state receipts root := by
  rcases hexec : Memory.empty.exec (executeMessages accounts make) with ⟨executed, objects⟩
  rw [TwoTipsets.ofMessages, hexec] at h
  cases executed with
  | error f => cases h
  | ok made =>
    obtain ⟨state, named, receipts, root⟩ := made
    cases h
    refine ⟨state, receipts, root, ?_, rfl, rfl, ?_⟩
    · simpa [addExecuted_all, Chain.push] using hexec
    · simp only [addExecuted_all, Chain.push]
      simp [Chain.empty, oneBlock, TipsetKey.cids, Tipset.headers]

namespace TwoTipsets.Makes

section

variable {t : TwoTipsets} (h : t.Makes accounts make state receipts root)

include h

theorem inclusion_height : t.inclusion.height = inclusionHeight := by
  rw [h.inclusion]
  rfl

theorem execution_height : t.execution.height = inclusionHeight + 1 := by
  rw [h.execution]
  rfl

/-- The two tipsets have different keys. -/
theorem keys_ne : (t.inclusion.key == t.execution.key) = false := by
  have hnames : nameless "inclusion" ≠ nameless "execution" := by decide +kernel
  rw [beq_eq_false_iff_ne, h.inclusion, h.execution]
  exact fun heq => hnames (congrArg TipsetKey.first heq)

/-- The chain finds the first tipset by its key. -/
theorem tipset_inclusion : t.chain.tipset t.inclusion.key = .ok t.inclusion := by
  rw [Chain.tipset, congrArg Chain.tipsets h.chain]
  simp [Chain.entry]

/-- And the second. -/
theorem tipset_execution : t.chain.tipset t.execution.key = .ok t.execution := by
  rw [Chain.tipset, congrArg Chain.tipsets h.chain]
  simp [Chain.entry, h.keys_ne]

/-- By its height it finds the second one. -/
theorem tipsetAt_execution : t.chain.tipsetAt (inclusionHeight + 1) none = .ok t.execution := by
  rw [Chain.tipsetAt, congrArg Chain.tipsets h.chain]
  simp [Chain.entry, h.execution_height, bind, Except.bind]

/-- And from there the first. -/
theorem tipsetAt_inclusion :
    t.chain.tipsetAt inclusionHeight (some t.execution.key) = .ok t.inclusion := by
  have hbelow : inclusionHeight ≤ inclusionHeight + 1 := by decide
  have habove : ¬inclusionHeight + 1 ≤ inclusionHeight := by decide
  rw [Chain.tipsetAt, congrArg Chain.tipsets h.chain]
  simp [h.tipset_execution, Chain.entry, h.execution_height, h.inclusion_height, hbelow, habove,
    bind, Except.bind]

/-- The tipset that executes the messages is right above the one that includes them. -/
theorem parents : t.execution.parents = t.inclusion.key.cids := by
  rw [h.execution]
  rfl

theorem parentState : t.inclusion.parentState = state.root := by
  rw [h.inclusion]
  rfl

theorem parentBaseFee : t.inclusion.parentBaseFee = baseFee := by
  rw [h.inclusion]
  rfl

/-- A block of the first tipset is found. -/
theorem block_inclusion :
    t.chain.answer (.block t.inclusion.key.first) = .ok t.inclusion.first := by
  have hne : t.inclusion.key.first ≠ t.execution.key.first := by
    intro heq
    have hkeys := h.keys_ne
    rw [beq_eq_false_iff_ne, h.inclusion, h.execution] at hkeys
    rw [h.inclusion, h.execution] at heq
    exact hkeys (congrArg (TipsetKey.mk · []) heq)
  rw [Chain.answer, congrArg Chain.blocks h.chain]
  simp [Hamt.lookup_cons_eq, hne, Chain.entry]

/-- The messages of the first tipset are those that the second was executed on. -/
theorem parentMessages :
    t.chain.answer (.parentMessages t.execution.key.first) = .ok t.messages := by
  rw [Chain.answer, congrArg Chain.parentMessages h.chain]
  simp [Chain.entry]

/-- A trial run of a payment shows its parties, and the account that it goes to in the end. -/
theorem trial {message : Message} (hmessage : IsPayment message) :
    ∃ subcalls, t.chain.answer (.trial message t.inclusion.key) =
        .ok { trace := .call message.sender message.receiver subcalls, error := "" } ∧
      (message.method = Transfer.forwardMethod → ∀ a,
        Transfer.beneficiaryOf? message.params.val = some a →
          subcalls = [.call message.receiver a []]) := by
  have hdeep : t.chain.shallowTraces = false := congrArg Chain.shallowTraces h.chain
  have htrial : t.chain.answer (.trial message t.inclusion.key) =
      (t.chain.subcalls message).map fun subcalls =>
        { trace := .call message.sender message.receiver subcalls, error := "" } := by
    rw [Chain.answer, h.tipset_inclusion]
    rfl
  -- only messages that forward value show a call within the call
  by_cases hmethod : message.method = Transfer.forwardMethod
  · obtain ⟨a, ha⟩ := hmessage.beneficiary hmethod
    refine ⟨[.call message.receiver a []], ?_, fun _ a' ha' => ?_⟩
    · rw [htrial, Chain.subcalls, if_pos ⟨hmethod, by rw [hdeep]; rfl⟩, ha]
      rfl
    · rw [ha] at ha'
      rw [Option.some.inj ha']
  · refine ⟨[], ?_, fun h => absurd h hmethod⟩
    rw [htrial, Chain.subcalls, if_neg fun h => hmethod h.1]
    rfl

/-- Chains that make payments hold nothing else. -/
theorem isPayment {payments : List Payment}
    (hmake : make = fun state => payments.mapM (·.message? state.accounts)) :
    ∀ n ∈ t.messages, IsPayment n.message := by
  intro n hn
  obtain ⟨m, hexecutes, -⟩ := executes_of_exec h.exec
  have hmade := hexecutes.made
  rw [hmake] at hmade
  have hmem : n.message ∈ t.messages.map (·.message) := List.mem_map_of_mem hn
  obtain ⟨p, -, hp⟩ := (mem_of_mapM hmade).2 _ hmem
  exact .of_message? hp

/-- A message that has an identifier for itself is known with its receipt. -/
theorem message {n : NamedMessage} {receipt : Receipt}
    (hnodup : (t.messages.map (·.cid)).Nodup) (hmem : (n, receipt) ∈ t.messages.zip receipts) :
    t.chain.answer (.message n.cid) = .ok n.message ∧
    t.chain.answer (.search n.cid) = .ok (some (lookupIn t.execution n.cid receipt)) ∧
    t.chain.answer (.receipt n.cid t.execution.key) = .ok (some receipt) := by
  obtain ⟨m, hexecutes, -⟩ := executes_of_exec h.exec
  have hlength := length_of_executeAll hexecutes.executed
  rw [List.length_map] at hlength
  have hkeys : ((t.messages.zip receipts).map fun e => e.1.cid).Nodup := by
    rw [← List.map_fst_zip (Nat.le_of_eq hlength.symm), List.map_map] at hnodup
    exact hnodup
  -- each table is the list of the messages, the last one first
  have hfind {β : Type} (f : NamedMessage × Receipt → β) :
      (((t.messages.zip receipts).map fun e => (e.1.cid, f e)).reverse).lookup n.cid =
        some (f (n, receipt)) := by
    refine Hamt.lookup_of_mem ?_ (List.mem_reverse.mpr (List.mem_map_of_mem hmem))
    rw [List.map_reverse, List.map_map]
    exact List.pairwise_reverse.mpr (hkeys.imp fun hne => hne.symm)
  refine ⟨?_, ?_, ?_⟩
  · rw [Chain.answer, congrArg Chain.messages h.chain, hfind fun e => e.1.message]
    rfl
  · rw [Chain.answer, congrArg Chain.lookups h.chain,
      hfind fun e => lookupIn t.execution e.1.cid e.2]
  · rw [Chain.answer, h.tipset_execution, congrArg Chain.receipts h.chain, hfind fun e => e.2]
    rfl

end

end TwoTipsets.Makes

end ReplayVector.Fixture
