import TsnGen.LayerWindow
import TsnGen.VerilatorTransport

namespace TsnGen

/-!
# Driving a sender

A `TrafficGenerator` builds packets of parsed interfaces and hands them to a
sender.  Whether a packet is accepted is up to the sender alone, so a sender is
any state machine; it remembers the calls that it got.

What the generator draws does not depend on what the sender answers.  A code of
success therefore says how many packets were accepted, up to the empty packets
that `sendLoop` counts as sent.
-/

/-- Calls of a sender: packets handed to it, each with its answer. -/
abbrev Handed := List (List UInt8 × SenderErr)

/-- The packets among the calls of a sender that it accepted. -/
def accepted
    (calls : Handed) : List (List UInt8) :=
  (calls.filter fun call => call.2 = .success).map Prod.fst

/-- A sender, with the calls of it so far as part of its state. -/
structure ISender (S : Type) where
  openSender : S → SenderErr × S
  send : List UInt8 → S → SenderErr × S
  close : S → S
  handed : S → Handed
  handed_send :
    ∀ packet sender,
      handed (send packet sender).2 =
        handed sender ++ [(packet, (send packet sender).1)]

namespace ISender

/-- The calls of a sender between two of its states. -/
def callsSince
    (sender : ISender S)
    (before after : S) : Handed :=
  (sender.handed after).drop (sender.handed before).length

/-- Calls are those behind the earlier ones. -/
theorem callsSince_eq
    {sender : ISender S}
    {before after : S}
    {calls : Handed}
    (further : sender.handed after = sender.handed before ++ calls) :
    sender.callsSince before after = calls := by
  rw [callsSince, further, List.drop_left]

end ISender

/-- Result codes of the generator. -/
inductive TrafficGeneratorErr where
  | success
  | unknown
  | notOpen
  | sendFailed
  | ifaceNotFound
  | emptyPacket
  deriving Repr, DecidableEq

/-- A generator: its sender, its random engine and whether it is open. -/
structure TrafficGenerator (S G : Type) where
  sender : S
  engine : G
  isOpen : Bool
  deriving Repr, DecidableEq

namespace TrafficGenerator

section Operations

variable
  (rng : Rng G)
  (sender : ISender S)
  (databases : Session)

/-- Open the underlying sender. -/
def openSender
    (generator : TrafficGenerator S G) :
    TrafficGeneratorErr × TrafficGenerator S G :=
  let opened := sender.openSender generator.sender
  if opened.1 ≠ .success then
    (.notOpen, { generator with sender := opened.2 })
  else
    (.success, { generator with sender := opened.2, isOpen := true })

/-- Close the underlying sender. -/
def close
    (generator : TrafficGenerator S G) : TrafficGenerator S G :=
  if generator.isOpen then
    { generator with
      sender := sender.close generator.sender
      isOpen := false }
  else
    generator

/-- Build a packet of an interface and hand it over unless it is empty. -/
def sendOne
    (iface : ProtocolInterface)
    (generator : TrafficGenerator S G) :
    TrafficGeneratorErr × TrafficGenerator S G :=
  let built :=
    PacketBuilder.build rng iface databases.varDb generator.engine
  if built.1.isEmpty then
    (.emptyPacket, { generator with engine := built.2 })
  else
    let sent := sender.send built.1 generator.sender
    (if sent.1 ≠ .success then .sendFailed else .success,
      { generator with sender := sent.2, engine := built.2 })

/-- Send one packet for the named interface. -/
def send
    (qualifiedName : String)
    (generator : TrafficGenerator S G) :
    TrafficGeneratorErr × TrafficGenerator S G :=
  if generator.isOpen then
    match databases.interfaceDb.getElement qualifiedName with
    | none => (.ifaceNotFound, generator)
    | some iface => sendOne rng sender databases iface generator
  else
    (.notOpen, generator)

/-- Send for one entry of the database, keeping the last error of note. -/
def sendEntry
    (targeted : ProtocolInterface → Bool)
    (state : TrafficGeneratorErr × TrafficGenerator S G)
    (entry : String × ProtocolInterface) :
    TrafficGeneratorErr × TrafficGenerator S G :=
  if targeted entry.2 then
    let sent := sendOne rng sender databases entry.2 state.2
    (if sent.1 ≠ .success ∧ sent.1 ≠ .emptyPacket then
        sent.1
      else
        state.1, sent.2)
  else
    state

/-- Send one packet for every interface that is targeted, in key order. -/
def sendTargeted
    (targeted : ProtocolInterface → Bool)
    (generator : TrafficGenerator S G) :
    TrafficGeneratorErr × TrafficGenerator S G :=
  if generator.isOpen then
    databases.interfaceDb.entries.foldl
      (sendEntry rng sender databases targeted) (.success, generator)
  else
    (.notOpen, generator)

/-- Send one packet for every interface of a direction. -/
def sendFiltered
    (dir : IfDirections)
    (generator : TrafficGenerator S G) :
    TrafficGeneratorErr × TrafficGenerator S G :=
  sendTargeted rng sender databases (fun iface => iface.direction = dir)
    generator

/-- Send one packet for every interface. -/
def sendAll
    (generator : TrafficGenerator S G) :
    TrafficGeneratorErr × TrafficGenerator S G :=
  sendTargeted rng sender databases (fun _ => true) generator

/--
The rounds of `sendLoop` from an index on; there is no result if the fuel does
not last, as without an end it never does while the sender accepts.
-/
def sendRounds
    (iface : ProtocolInterface)
    (count : Nat) :
    Nat → Nat → TrafficGenerator S G →
      Option (TrafficGeneratorErr × TrafficGenerator S G)
  | 0, _, _ => none
  | fuel + 1, index, generator =>
      if count = 0 ∨ index < count then
        let sent := sendOne rng sender databases iface generator
        if sent.1 = .sendFailed then
          some sent
        else
          sendRounds iface count fuel (index + 1) sent.2
      else
        some (.success, generator)

/-- Repeatedly send for the named interface; a count of zero has no end. -/
def sendLoop
    (qualifiedName : String)
    (count fuel : Nat)
    (generator : TrafficGenerator S G) :
    Option (TrafficGeneratorErr × TrafficGenerator S G) :=
  if generator.isOpen then
    match databases.interfaceDb.getElement qualifiedName with
    | none => some (.ifaceNotFound, generator)
    | some iface =>
        sendRounds rng sender databases iface count fuel 0 generator
  else
    some (.notOpen, generator)

end Operations

/--
No reference of an interface resolves to a width that bits are written of.
-/
def WithoutBits
    (varDb : Database Var)
    (iface : ProtocolInterface) : Prop :=
  ∀ ref ∈ iface.varRefs, ∀ var,
    varDb.getElement ref = some var →
      var.size = 0 ∨ 2 ^ 31 < var.size.toNat

/-- Packets built in order, each with the engine that the last one left. -/
def packetsInOrder
    (rng : Rng G)
    (varDb : Database Var) :
    List ProtocolInterface → G → List (List UInt8)
  | [], _ => []
  | iface :: rest, engine =>
      let built := PacketBuilder.build rng iface varDb engine
      built.1 :: packetsInOrder rng varDb rest built.2

/-- The targeted interfaces in key order. -/
def targets
    (databases : Session)
    (targeted : ProtocolInterface → Bool) : List ProtocolInterface :=
  (databases.interfaceDb.entries.map Prod.snd).filter targeted

/-- What there is to send for the targeted interfaces, in key order. -/
def packetsOfTargets
    (rng : Rng G)
    (databases : Session)
    (targeted : ProtocolInterface → Bool)
    (engine : G) : List (List UInt8) :=
  (packetsInOrder rng databases.varDb (targets databases targeted)
    engine).filter fun packet => !packet.isEmpty

/-- Calls are accepted as one packet, or as none of them. -/
@[simp] theorem accepted_append
    (first second : Handed) :
    accepted (first ++ second) = accepted first ++ accepted second := by
  simp [accepted]

/-- Where every call succeeds every packet is accepted. -/
theorem accepted_of_all_success
    {calls : Handed}
    (success : ∀ call ∈ calls, call.2 = .success) :
    accepted calls = calls.map Prod.fst := by
  have all : calls.filter (fun call => call.2 = .success) = calls := by
    rw [List.filter_eq_self]
    simpa using success
  rw [accepted, all]

/-- Nothing is written of a width of zero or above `2^31`. -/
theorem loopCount_eq_zero_iff
    (numBits : UInt32) :
    loopCount numBits = 0 ↔
      numBits = 0 ∨ 2 ^ 31 < numBits.toNat := by
  rcases Nat.lt_or_ge (2 ^ 31) numBits.toNat with wide | narrow
  · exact iff_of_true (loopCount_eq_zero wide) (Or.inr wide)
  · have zero : numBits.toNat = 0 ↔ numBits = 0 := by
      rw [← UInt32.toNat_inj]
      rfl
    rw [loopCount_eq_toNat_of_le narrow, zero]
    exact (or_iff_left (Nat.not_lt_of_le narrow)).symm

/-- A packet is empty exactly if nothing is written of any reference. -/
theorem build_isEmpty_iff
    (rng : Rng G)
    (iface : ProtocolInterface)
    (varDb : Database Var)
    (engine : G) :
    (PacketBuilder.build rng iface varDb engine).1.isEmpty = true ↔
      WithoutBits varDb iface := by
  have size :
      (PacketBuilder.build rng iface varDb engine).1.length = 0 ↔
        visitedBits
          (PacketDecoder.declaredShape varDb iface.varRefs) = 0 := by
    rw [PacketBuilder.build, PacketBuilder.buildWithFields]
    dsimp only
    rw [length_buildLoop]
    omega
  rw [List.isEmpty_iff_length_eq_zero, size, visitedBits,
    List.sum_eq_zero_iff_forall_eq_nat]
  simp only [PacketDecoder.declaredShape, List.mem_map, Prod.exists]
  constructor
  · intro nothing ref member var resolved
    by_cases empty : var.size = 0
    · exact Or.inl empty
    · have wireField : (shortName ref, var) ∈ layout varDb iface.varRefs :=
        mem_layout_iff.mpr ⟨ref, member, rfl, resolved, empty⟩
      rw [← loopCount_eq_zero_iff]
      exact nothing _ ⟨_, _, ⟨_, _, wireField, rfl⟩, rfl⟩
  · rintro without _ ⟨name, size, ⟨field, var, wireField, same⟩, rfl⟩
    obtain ⟨ref, member, -, resolved, -⟩ := mem_layout_iff.mp wireField
    cases same
    exact (loopCount_eq_zero_iff var.size).mpr
      (without ref member var resolved)

/-- What sending one packet does, for any sender. -/
theorem sendOne_cases
    (rng : Rng G)
    (sender : ISender S)
    (databases : Session)
    (iface : ProtocolInterface)
    (generator : TrafficGenerator S G)
    {built : List UInt8 × G}
    (isBuilt :
      PacketBuilder.build rng iface databases.varDb generator.engine =
        built) :
    built.1.isEmpty = true ∧
        sendOne rng sender databases iface generator =
          (.emptyPacket, { generator with engine := built.2 }) ∨
      built.1.isEmpty = false ∧
        ∃ answer after,
          sender.handed after =
              sender.handed generator.sender ++ [(built.1, answer)] ∧
            (answer = .success ∧
                sendOne rng sender databases iface generator =
                  (.success,
                    { generator with sender := after, engine := built.2 }) ∨
              answer ≠ .success ∧
                sendOne rng sender databases iface generator =
                  (.sendFailed,
                    { generator with
                      sender := after
                      engine := built.2 })) := by
  simp only [sendOne, isBuilt]
  cases empty : built.1.isEmpty with
  | true =>
      exact Or.inl ⟨rfl, rfl⟩
  | false =>
      refine Or.inr ⟨rfl, (sender.send built.1 generator.sender).1,
        (sender.send built.1 generator.sender).2,
        sender.handed_send _ _, ?_⟩
      by_cases answered :
          (sender.send built.1 generator.sender).1 = .success
      · exact Or.inl ⟨answered, by simp [answered]⟩
      · exact Or.inr ⟨answered, by simp [answered]⟩

/--
At one entry the packet handed over is the one there is to send, if any, and
an error stays or is replaced by another one.
-/
theorem sendEntry_hands
    (rng : Rng G)
    (sender : ISender S)
    (databases : Session)
    (targeted : ProtocolInterface → Bool)
    (lastErr : TrafficGeneratorErr)
    (generator : TrafficGenerator S G)
    (entry : String × ProtocolInterface) :
    ∃ next : TrafficGeneratorErr × TrafficGenerator S G, ∃ calls : Handed,
      sendEntry rng sender databases targeted (lastErr, generator) entry =
        next ∧
      sender.handed next.2.sender =
        sender.handed generator.sender ++ calls ∧
      (∀ others,
        (packetsInOrder rng databases.varDb
            (([entry.2].filter targeted) ++ others)
            generator.engine).filter (fun packet => !packet.isEmpty) =
          calls.map Prod.fst ++
            (packetsInOrder rng databases.varDb others
              next.2.engine).filter (fun packet => !packet.isEmpty)) ∧
      (next.1 = .success →
        lastErr = .success ∧ ∀ call ∈ calls, call.2 = .success) := by
  cases aimed : targeted entry.2 with
  | false =>
      refine ⟨_, [], by rw [sendEntry], ?_⟩
      simp [aimed]
  | true =>
      obtain ⟨built, isBuilt⟩ :
          ∃ built,
            PacketBuilder.build rng entry.2 databases.varDb
              generator.engine = built :=
        ⟨_, rfl⟩
      rcases sendOne_cases rng sender databases entry.2 generator isBuilt
        with ⟨empty, sent⟩ |
          ⟨filled, answer, after, handed, ⟨yes, sent⟩ | ⟨no, sent⟩⟩
      · refine ⟨(lastErr, { generator with engine := built.2 }), [],
          by simp [sendEntry, aimed, sent], (List.append_nil _).symm, ?_,
          by simp⟩
        intro others
        simp [aimed, packetsInOrder, isBuilt, empty]
      · refine ⟨(lastErr,
            { generator with sender := after, engine := built.2 }),
          [(built.1, answer)], by simp [sendEntry, aimed, sent], handed, ?_,
          by simp [yes]⟩
        intro others
        simp [aimed, packetsInOrder, isBuilt, filled]
      · refine ⟨(.sendFailed,
            { generator with sender := after, engine := built.2 }),
          [(built.1, answer)], by simp [sendEntry, aimed, sent], handed, ?_,
          nofun⟩
        intro others
        simp [aimed, packetsInOrder, isBuilt, filled]

/--
Over the targeted entries the packets handed over are those there are to send,
and a code of success says that each was accepted.
-/
theorem foldl_sendEntry
    (rng : Rng G)
    (sender : ISender S)
    (databases : Session)
    (targeted : ProtocolInterface → Bool)
    (entries : List (String × ProtocolInterface))
    (lastErr : TrafficGeneratorErr)
    (generator : TrafficGenerator S G) :
    ∃ calls,
      sender.handed
          (entries.foldl (sendEntry rng sender databases targeted)
            (lastErr, generator)).2.sender =
        sender.handed generator.sender ++ calls ∧
      calls.map Prod.fst =
        (packetsInOrder rng databases.varDb
          ((entries.map Prod.snd).filter targeted)
          generator.engine).filter (fun packet => !packet.isEmpty) ∧
      ((entries.foldl (sendEntry rng sender databases targeted)
            (lastErr, generator)).1 = .success →
        lastErr = .success ∧ ∀ call ∈ calls, call.2 = .success) := by
  induction entries generalizing lastErr generator with
  | nil =>
      exact ⟨[], by simp [packetsInOrder]⟩
  | cons entry rest inductionHypothesis =>
      obtain ⟨⟨err, next⟩, calls, step, handed, packets, success⟩ :=
        sendEntry_hands rng sender databases targeted lastErr generator entry
      obtain ⟨later, handedLater, packetsLater, successLater⟩ :=
        inductionHypothesis err next
      rw [List.foldl_cons, step]
      refine ⟨calls ++ later, ?_, ?_, ?_⟩
      · rw [handedLater, handed, List.append_assoc]
      · rw [List.map_append, packetsLater, ← packets, ← List.filter_append,
          List.map_cons, List.singleton_append]
      · intro whole
        obtain ⟨clean, others⟩ := successLater whole
        obtain ⟨cleanBefore, own⟩ := success clean
        exact ⟨cleanBefore, List.forall_mem_append.mpr ⟨own, others⟩⟩

/--
A call for targeted interfaces hands over what there is to send, and if it
succeeds all of that was accepted.
-/
theorem sendTargeted_hands
    (rng : Rng G)
    (sender : ISender S)
    (databases : Session)
    (targeted : ProtocolInterface → Bool)
    (generator : TrafficGenerator S G) :
    (sender.callsSince generator.sender
          (sendTargeted rng sender databases targeted
            generator).2.sender).map Prod.fst =
        (if generator.isOpen then
          packetsOfTargets rng databases targeted generator.engine
        else
          []) ∧
      ((sendTargeted rng sender databases targeted generator).1 = .success →
        accepted
            (sender.callsSince generator.sender
              (sendTargeted rng sender databases targeted
                generator).2.sender) =
          packetsOfTargets rng databases targeted generator.engine) := by
  unfold sendTargeted
  cases generator.isOpen with
  | false =>
      simp [ISender.callsSince]
  | true =>
      obtain ⟨calls, further, packets, success⟩ :=
        foldl_sendEntry rng sender databases targeted
          databases.interfaceDb.entries .success generator
      simp only [↓reduceIte]
      rw [ISender.callsSince_eq further]
      refine ⟨packets, ?_⟩
      intro succeeds
      rw [accepted_of_all_success (success succeeds).2]
      exact packets

/-- What is handed over for the targets does not depend on the sender. -/
theorem sendTargeted_independent
    (rng : Rng G)
    (sender : ISender S)
    (other : ISender T)
    (databases : Session)
    (targeted : ProtocolInterface → Bool)
    (generator : TrafficGenerator S G)
    (state : T) :
    (sender.callsSince generator.sender
        (sendTargeted rng sender databases targeted
          generator).2.sender).map Prod.fst =
      (other.callsSince state
        (sendTargeted rng other databases targeted
          { sender := state
            engine := generator.engine
            isOpen := generator.isOpen }).2.sender).map Prod.fst := by
  rw [(sendTargeted_hands rng sender databases targeted generator).1]
  exact
    (sendTargeted_hands rng other databases targeted
      { sender := state
        engine := generator.engine
        isOpen := generator.isOpen }).1.symm

/-- The rounds of `sendLoop` with a number of them left to go. -/
def sendCounted
    (rng : Rng G)
    (sender : ISender S)
    (databases : Session)
    (iface : ProtocolInterface) :
    Nat → TrafficGenerator S G →
      TrafficGeneratorErr × TrafficGenerator S G
  | 0, generator => (.success, generator)
  | remaining + 1, generator =>
      let sent := sendOne rng sender databases iface generator
      if sent.1 = .sendFailed then
        sent
      else
        sendCounted rng sender databases iface remaining sent.2

/-- With a count the fuel lasts if it exceeds the rounds left to go. -/
theorem sendRounds_eq
    (rng : Rng G)
    (sender : ISender S)
    (databases : Session)
    (iface : ProtocolInterface)
    {count remaining index fuel : Nat}
    (positive : 0 < count)
    (left : index + remaining = count)
    (enough : remaining < fuel)
    (generator : TrafficGenerator S G) :
    sendRounds rng sender databases iface count fuel index generator =
      some (sendCounted rng sender databases iface remaining
        generator) := by
  induction remaining generalizing index fuel generator with
  | zero =>
      obtain ⟨fuel, rfl⟩ := Nat.exists_eq_succ_of_ne_zero enough.ne'
      rw [sendRounds, if_neg (by omega)]
      rfl
  | succ remaining inductionHypothesis =>
      obtain ⟨fuel, rfl⟩ :=
        Nat.exists_eq_succ_of_ne_zero (Nat.ne_of_gt (Nat.zero_lt_of_lt enough))
      rw [sendRounds, if_pos (by omega), sendCounted]
      dsimp only
      split
      · rfl
      · exact inductionHypothesis (by omega) (by omega) _

/-- A round that goes on got one packet accepted, unless it is empty. -/
theorem accepted_of_sendOne
    (rng : Rng G)
    (sender : ISender S)
    (databases : Session)
    (iface : ProtocolInterface)
    (generator : TrafficGenerator S G) :
    ∃ calls,
      sender.handed
          (sendOne rng sender databases iface generator).2.sender =
        sender.handed generator.sender ++ calls ∧
      (¬ WithoutBits databases.varDb iface →
        (sendOne rng sender databases iface generator).1 ≠ .sendFailed →
          (accepted calls).length = 1) ∧
      (WithoutBits databases.varDb iface →
        (sendOne rng sender databases iface generator).1 ≠ .sendFailed ∧
          calls = []) := by
  have isEmpty :=
    build_isEmpty_iff rng iface databases.varDb generator.engine
  rcases sendOne_cases rng sender databases iface generator rfl
    with ⟨empty, sent⟩ |
      ⟨filled, answer, after, handed, ⟨yes, sent⟩ | ⟨no, sent⟩⟩
  · rw [sent]
    refine ⟨[], (List.append_nil _).symm, ?_, fun _ => ⟨nofun, rfl⟩⟩
    intro present
    exact absurd (isEmpty.mp empty) present
  · rw [sent]
    refine ⟨_, handed, ?_, ?_⟩
    · simp [accepted, yes]
    · intro nothing
      rw [isEmpty.mpr nothing] at filled
      cases filled
  · rw [sent]
    refine ⟨_, handed, fun _ goesOn => absurd rfl goesOn, ?_⟩
    intro nothing
    rw [isEmpty.mpr nothing] at filled
    cases filled

/-- Rounds that succeed got a packet accepted each, unless it is empty. -/
theorem accepted_of_sendCounted
    (rng : Rng G)
    (sender : ISender S)
    (databases : Session)
    (iface : ProtocolInterface)
    (remaining : Nat)
    (generator : TrafficGenerator S G) :
    ∃ calls,
      sender.handed
          (sendCounted rng sender databases iface remaining
            generator).2.sender =
        sender.handed generator.sender ++ calls ∧
      (¬ WithoutBits databases.varDb iface →
        (sendCounted rng sender databases iface remaining
            generator).1 = .success →
          (accepted calls).length = remaining) ∧
      (WithoutBits databases.varDb iface →
        (sendCounted rng sender databases iface remaining
            generator).1 = .success ∧ calls = []) := by
  induction remaining generalizing generator with
  | zero =>
      exact ⟨[], by simp [sendCounted, accepted]⟩
  | succ remaining inductionHypothesis =>
      obtain ⟨calls, handed, counted, nothing⟩ :=
        accepted_of_sendOne rng sender databases iface generator
      obtain ⟨later, handedLater, countedLater, nothingLater⟩ :=
        inductionHypothesis (sendOne rng sender databases iface generator).2
      rw [sendCounted]
      by_cases failed :
          (sendOne rng sender databases iface generator).1 = .sendFailed
      · rw [if_pos failed]
        refine ⟨calls, handed, ?_, ?_⟩
        · intro _ succeeds
          rw [failed] at succeeds
          cases succeeds
        · intro empty
          exact absurd failed (nothing empty).1
      · rw [if_neg failed]
        refine ⟨calls ++ later, ?_, ?_, ?_⟩
        · rw [handedLater, handed, List.append_assoc]
        · intro present succeeds
          rw [accepted_append, List.length_append, counted present failed,
            countedLater present succeeds, Nat.add_comm]
        · intro empty
          obtain ⟨succeeds, noLater⟩ := nothingLater empty
          refine ⟨succeeds, ?_⟩
          rw [(nothing empty).2, noLater]
          rfl

/-- What the codes of one generator say about the packets accepted. -/
structure Accounted
    (rng : Rng G)
    (sender : ISender S)
    (databases : Session)
    (generator : TrafficGenerator S G)
    (qualifiedName : String)
    (count : Nat) : Prop where
  ofSend :
    (send rng sender databases qualifiedName generator).1 = .success →
      (accepted
        (sender.callsSince generator.sender
          (send rng sender databases qualifiedName
            generator).2.sender)).length = 1
  ofSendLoop :
    ∃ result,
      (∀ fuel, count < fuel →
        sendLoop rng sender databases qualifiedName count fuel generator =
          some result) ∧
        (result.1 = .success →
          (accepted
            (sender.callsSince generator.sender
              result.2.sender)).length = count)
  ofSendAll :
    (sendAll rng sender databases generator).1 = .success →
      accepted
          (sender.callsSince generator.sender
            (sendAll rng sender databases generator).2.sender) =
        packetsOfTargets rng databases (fun _ => true) generator.engine
  ofSendFiltered :
    ∀ dir,
      (sendFiltered rng sender databases dir generator).1 = .success →
        accepted
            (sender.callsSince generator.sender
              (sendFiltered rng sender databases dir
                generator).2.sender) =
          packetsOfTargets rng databases
            (fun iface => iface.direction = dir) generator.engine
  independent :
    ∀ (T : Type) (other : ISender T) (state : T),
      (sender.callsSince generator.sender
            (sendAll rng sender databases
              generator).2.sender).map Prod.fst =
          (other.callsSince state
            (sendAll rng other databases
              { sender := state
                engine := generator.engine
                isOpen := generator.isOpen }).2.sender).map Prod.fst ∧
        ∀ dir,
          (sender.callsSince generator.sender
              (sendFiltered rng sender databases dir
                generator).2.sender).map Prod.fst =
            (other.callsSince state
              (sendFiltered rng other databases dir
                { sender := state
                  engine := generator.engine
                  isOpen := generator.isOpen }).2.sender).map Prod.fst

/-- A single send that succeeds got one packet accepted. -/
theorem accepted_of_send
    (rng : Rng G)
    (sender : ISender S)
    (databases : Session)
    (qualifiedName : String)
    (generator : TrafficGenerator S G)
    (succeeds :
      (send rng sender databases qualifiedName generator).1 = .success) :
    (accepted
      (sender.callsSince generator.sender
        (send rng sender databases qualifiedName
          generator).2.sender)).length = 1 := by
  unfold send at succeeds ⊢
  split at succeeds
  next isOpen =>
    split at succeeds
    next =>
      cases succeeds
    next iface found =>
      rcases sendOne_cases rng sender databases iface generator rfl
        with ⟨empty, sent⟩ |
          ⟨filled, answer, after, handed, ⟨yes, sent⟩ | ⟨no, sent⟩⟩
      · rw [sent] at succeeds
        cases succeeds
      · rw [if_pos isOpen, sent, ISender.callsSince_eq handed]
        simp [accepted, yes]
      · rw [sent] at succeeds
        cases succeeds
  next =>
    cases succeeds

/--
A loop that succeeds got as many packets accepted as it counted, exactly unless
the interface is found and nothing is written of any of its references.
-/
theorem accepted_of_sendLoop_iff
    (rng : Rng G)
    (sender : ISender S)
    (databases : Session)
    (qualifiedName : String)
    {count : Nat}
    (positive : 0 < count)
    (generator : TrafficGenerator S G) :
    (∃ result,
      (∀ fuel, count < fuel →
        sendLoop rng sender databases qualifiedName count fuel generator =
          some result) ∧
        (result.1 = .success →
          (accepted
            (sender.callsSince generator.sender
              result.2.sender)).length = count)) ↔
      ¬ (generator.isOpen = true ∧
        ∃ iface,
          databases.interfaceDb.getElement qualifiedName = some iface ∧
            WithoutBits databases.varDb iface) := by
  cases isOpen : generator.isOpen with
  | false =>
      refine iff_of_true ⟨(.notOpen, generator), ?_, nofun⟩ (by simp)
      intro fuel enough
      simp [sendLoop, isOpen]
  | true =>
      cases found : databases.interfaceDb.getElement qualifiedName with
      | none =>
          refine iff_of_true ⟨(.ifaceNotFound, generator), ?_, nofun⟩
            (by simp)
          intro fuel enough
          simp [sendLoop, isOpen, found]
      | some iface =>
          have rounds :
              ∀ fuel, count < fuel →
                sendLoop rng sender databases qualifiedName count fuel
                    generator =
                  some (sendCounted rng sender databases iface count
                    generator) := by
            intro fuel enough
            rw [sendLoop, if_pos isOpen, found]
            exact sendRounds_eq rng sender databases iface positive
              (Nat.zero_add count) enough generator
          obtain ⟨calls, further, counted, nothing⟩ :=
            accepted_of_sendCounted rng sender databases iface count
              generator
          by_cases empty : WithoutBits databases.varDb iface
          · obtain ⟨succeeds, rfl⟩ := nothing empty
            refine iff_of_false ?_ (by simp [empty])
            rintro ⟨result, returns, exact⟩
            have same := returns (count + 1) (Nat.lt_succ_self count)
            rw [rounds _ (Nat.lt_succ_self count), Option.some.injEq] at same
            rw [← same, ISender.callsSince_eq further] at exact
            have noneAccepted := exact succeeds
            simp only [accepted, List.filter_nil, List.map_nil,
              List.length_nil] at noneAccepted
            omega
          · refine iff_of_true ⟨_, rounds, ?_⟩ (by simp [empty])
            intro succeeds
            rw [ISender.callsSince_eq further]
            exact counted empty succeeds

/--
The codes say how many packets were accepted, and what is handed over does not
depend on the answers, exactly unless `sendLoop` finds an interface of which
nothing is written.
-/
theorem accounted_iff
    (rng : Rng G)
    (sender : ISender S)
    (databases : Session)
    (generator : TrafficGenerator S G)
    (qualifiedName : String)
    (count : Nat)
    (positive : 0 < count) :
    Accounted rng sender databases generator qualifiedName count ↔
      ¬ (generator.isOpen = true ∧
        ∃ iface,
          databases.interfaceDb.getElement qualifiedName = some iface ∧
            WithoutBits databases.varDb iface) := by
  rw [← accepted_of_sendLoop_iff rng sender databases qualifiedName positive
    generator]
  constructor
  · intro accounted
    exact accounted.ofSendLoop
  · intro counted
    exact {
      ofSend := accepted_of_send rng sender databases qualifiedName generator
      ofSendLoop := counted
      ofSendAll :=
        (sendTargeted_hands rng sender databases (fun _ => true)
          generator).2
      ofSendFiltered := fun dir =>
        (sendTargeted_hands rng sender databases _ generator).2
      independent := fun T other state =>
        ⟨sendTargeted_independent rng sender other databases _ generator
            state,
          fun dir =>
            sendTargeted_independent rng sender other databases _ generator
              state⟩ }

/-- A sender that keeps its calls and refuses every second packet. -/
def everySecond : ISender Handed where
  openSender handed := (.success, handed)
  send packet handed :=
    let answer :=
      if handed.length % 2 = 0 then SenderErr.success else .sendFailed
    (answer, handed ++ [(packet, answer)])
  close handed := handed
  handed handed := handed
  handed_send _ _ := rfl

/-- The databases of one interface with one variable of a given width. -/
def soleDatabases
    (size : UInt32) : Session where
  varDb := soleVarDb size
  interfaceDb :=
    (Database.empty.addUniqueElement soleInterface.name soleInterface).2
  serviceDb := .empty

theorem accounted_iff_byte :
    Accounted (Rng.constant 7) everySecond (soleDatabases 8)
      { sender := [], engine := (), isOpen := true } "svc::mac::tx" 3 := by
  refine (accounted_iff (Rng.constant 7) everySecond (soleDatabases 8)
    { sender := [], engine := (), isOpen := true } "svc::mac::tx" 3
    (by decide)).mpr ?_
  rintro ⟨-, iface, found, without⟩
  have isSole :
      (soleDatabases 8).interfaceDb.getElement "svc::mac::tx" =
        some soleInterface := by
    decide
  rw [isSole] at found
  cases found
  have nothing :=
    without "svc::x" (by decide)
      { name := "svc::x"
        size := 8
        expectedValues := []
        range := none
        mask := 0 } (by decide)
  revert nothing
  decide

/-- Three packets are counted as sent and none is handed over. -/
theorem empty_packets_counted :
    ¬ ∀ (rng : Rng Unit) (sender : ISender Handed) (databases : Session)
      (generator : TrafficGenerator Handed Unit) (qualifiedName : String)
      (count : Nat), 0 < count →
        Accounted rng sender databases generator qualifiedName count := by
  intro always
  obtain ⟨result, returns, exact⟩ :=
    (always (Rng.constant 0) everySecond (soleDatabases 0)
      { sender := [], engine := (), isOpen := true } "svc::mac::tx" 3
      (by decide)).ofSendLoop
  have returned :
      sendLoop (Rng.constant 0) everySecond (soleDatabases 0)
          "svc::mac::tx" 3 4
          { sender := [], engine := (), isOpen := true } =
        some (.success,
          { sender := [], engine := (), isOpen := true }) := by
    rfl
  rw [returns 4 (by decide), Option.some.injEq] at returned
  rw [returned] at exact
  have counted := exact rfl
  revert counted
  decide

end TrafficGenerator

end TsnGen
