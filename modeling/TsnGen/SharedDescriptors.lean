import TsnGen.DescriptorTransports

namespace TsnGen

/-!
# Transports in one process

Any number of transports share the descriptor table of a process with other
code, and are called in any order.  None disturbs another one or the other code,
although the numbers of closed descriptors are given out again.  A descriptor is
left behind exactly by opening a transport that is open.
-/

open SharedTable

/-- Whether an opening succeeded. -/
def TransportReply.succeeded : TransportReply → Bool
  | .sender code => code = .success
  | .opened (.ok _) => true
  | _ => false

/-- A call of a transport with what it was given and its reply. -/
abbrev AnsweredCall :=
  HandleCall Description TransportRequest TransportReply

/-- Whether a transport is open behind a call. -/
def stillOpen
    (isOpen : Bool)
    (call : AnsweredCall) : Bool :=
  match call.request with
  | .openTransport _ _ => call.reply.succeeded
  | .close => false
  | _ => isOpen

/-- Whether a transport that was new is open behind calls. -/
def openAfter
    (calls : List AnsweredCall) : Bool :=
  calls.foldl stillOpen false

/-- A transport was opened that was open. -/
def Reopened
    (calls : List AnsweredCall) : Prop :=
  ∃ earlier call later,
    calls = earlier ++ call :: later ∧
      NumberedTransport.opens call.request = true ∧
        openAfter earlier = true

/-- What was opened again was also opened again in a longer history. -/
theorem Reopened.append
    {calls : List AnsweredCall}
    (reopened : Reopened calls)
    (further : List AnsweredCall) :
    Reopened (calls ++ further) := by
  obtain ⟨earlier, call, later, rfl, opening, wasOpen⟩ := reopened
  exact ⟨earlier, call, later ++ further, by simp, opening, wasOpen⟩

/-- One more call opens again, or a call before it has. -/
theorem reopened_append
    (calls : List AnsweredCall)
    (call : AnsweredCall) :
    Reopened (calls ++ [call]) ↔
      Reopened calls ∨
        (NumberedTransport.opens call.request = true ∧
          openAfter calls = true) := by
  constructor
  · rintro ⟨earlier, again, later, whole, opening, wasOpen⟩
    rcases List.eq_nil_or_concat later with rfl | ⟨front, last, rfl⟩
    · obtain ⟨rfl, isCall⟩ := List.append_inj' whole rfl
      cases isCall
      exact .inr ⟨opening, wasOpen⟩
    · rw [List.concat_eq_append, ← List.cons_append,
        ← List.append_assoc] at whole
      obtain ⟨rfl, -⟩ := List.append_inj' whole rfl
      exact .inl ⟨earlier, again, front, rfl, opening, wasOpen⟩
  · rintro (reopened | ⟨opening, wasOpen⟩)
    · exact reopened.append [call]
    · exact ⟨calls, call, [], rfl, opening, wasOpen⟩

/-- Whether a machine has its streams. -/
def isOpenDevice :
    SenderDevice ⊕ ReceiverDevice → Bool
  | .inl (.raw device) => device.mSockFd.isSome
  | .inl (.pcap device) => device.mFd.isSome
  | .inl (.verilator device) => device.mSockFd.isSome
  | .inr (.raw device) => device.mSockFd.isSome
  | .inr (.pcap device) => device.mFd.isSome
  | .inr (.verilator device) => device.mSockFd.isSome

/-- Sending leaves a raw socket open or closed. -/
theorem RawSocketSender.isSome_send
    (packet : List UInt8)
    (sender : RawSocketSender) :
    (sender.send packet).2.mSockFd.isSome = sender.mSockFd.isSome := by
  cases isOpen : sender.mSockFd with
  | none =>
      simp [send, isOpen]
  | some socket =>
      simp only [send, isOpen]
      split
      · rfl
      · rfl

/-- Sending leaves a file open or closed. -/
theorem PcapSender.isSome_send
    (order : ByteOrder)
    (stamped : Timespec × List UInt8)
    (sender : PcapSender) :
    (sender.send order stamped).2.mFd.isSome = sender.mFd.isSome := by
  cases isOpen : sender.mFd with
  | none =>
      simp [send, isOpen]
  | some outlet =>
      simp only [send, isOpen]
      split
      · rfl
      · rfl

/-- Sending leaves a stream open or closed. -/
theorem VerilatorSender.isSome_send
    (order : ByteOrder)
    (packet : List UInt8)
    (sender : VerilatorSender) :
    (sender.send order packet).2.mSockFd.isSome =
      sender.mSockFd.isSome := by
  cases isOpen : sender.mSockFd with
  | none =>
      simp [send, isOpen]
  | some outlet =>
      simp only [send, isOpen]
      split
      · simp [isOpen]
      · rfl

/-- Receiving leaves a raw socket open or closed. -/
theorem RawSocketReceiver.isSome_receive
    (receiver : RawSocketReceiver) :
    receiver.receive.2.mSockFd.isSome = receiver.mSockFd.isSome := by
  obtain ⟨mSockFd⟩ := receiver
  cases mSockFd with
  | none =>
      rfl
  | some arrivals =>
      cases arrivals with
      | nil =>
          rfl
      | cons arrival later =>
          cases arrival with
          | _ =>
              rfl

/-- Receiving leaves a file open or closed. -/
theorem PcapReceiver.isSome_receive
    (order : ByteOrder)
    (receiver : PcapReceiver) :
    (receiver.receive order).2.mFd.isSome = receiver.mFd.isSome := by
  cases isOpen : receiver.mFd with
  | none =>
      simp [receive, isOpen]
  | some inlet =>
      simp only [receive, isOpen]
      split
      · rfl
      next header left read =>
        generalize
          (if receiver.mSwap = true then swap32 (wordAt order header 8)
          else wordAt order header 8) = inclLen
        split
        · rfl
        · split
          · rfl
          · rfl

/-- Receiving leaves a stream open or closed. -/
theorem VerilatorReceiver.isSome_receive
    (order : ByteOrder)
    (receiver : VerilatorReceiver) :
    (receiver.receive order).2.mSockFd.isSome =
      receiver.mSockFd.isSome := by
  cases isOpen : receiver.mSockFd with
  | none =>
      simp [receive, isOpen]
  | some inlet =>
      simp [receive, isOpen]

namespace NumberedTransport

variable {order : ByteOrder}

/-- An opening that succeeds leaves a machine open, any other one closed. -/
theorem isOpen_opened
    (ifIndex : Option Int)
    (attached : Bool)
    (offers : List (Option Description))
    (device : SenderDevice ⊕ ReceiverDevice) :
    isOpenDevice
        (perform order (.openTransport ifIndex attached) offers device).2 =
      (perform order (.openTransport ifIndex attached) offers
        device).1.succeeded := by
  simp only [perform]
  generalize offers.head?.getD none = offered
  rcases device with (device | device | device) | (device | device | device)
  · cases offered with
    | none =>
        rfl
    | some item =>
        cases ifIndex with
        | none =>
            rfl
        | some index =>
            cases attached with
            | _ =>
                rfl
  · cases offered with
    | none =>
        rfl
    | some item =>
        simp only [TsnGen.PcapSender.openFile, Option.map_some]
        split
        · rfl
        · rfl
  · cases offered with
    | none =>
        cases attached with
        | _ =>
            rfl
    | some item =>
        cases attached with
        | _ =>
            rfl
  · cases offered with
    | none =>
        rfl
    | some item =>
        cases ifIndex with
        | none =>
            rfl
        | some index =>
            cases attached with
            | _ =>
                rfl
  · cases offered with
    | none =>
        rfl
    | some item =>
        simp only [TsnGen.PcapReceiver.openFile, Option.map_some]
        split
        · rfl
        · split
          · rfl
          · split
            · rfl
            · rfl
  · cases offered with
    | none =>
        cases attached with
        | _ =>
            rfl
    | some item =>
        cases attached with
        | _ =>
            rfl

/-- What a reply tells is what the call does to a machine. -/
theorem isOpen_perform
    (request : TransportRequest)
    (offers : List (Option Description))
    (device : SenderDevice ⊕ ReceiverDevice) :
    isOpenDevice (perform order request offers device).2 =
      stillOpen (isOpenDevice device)
        ⟨request, offers, (perform order request offers device).1⟩ := by
  cases request with
  | openTransport ifIndex attached =>
      exact isOpen_opened ifIndex attached offers device
  | send time packet =>
      rcases device with (device | device | device) | device
      · exact TsnGen.RawSocketSender.isSome_send packet device
      · exact TsnGen.PcapSender.isSome_send order (time, packet) device
      · exact TsnGen.VerilatorSender.isSome_send order packet device
      · cases device with
        | _ =>
            rfl
  | receive =>
      rcases device with device | (device | device | device)
      · cases device with
        | _ =>
            rfl
      · exact TsnGen.RawSocketReceiver.isSome_receive device
      · exact TsnGen.PcapReceiver.isSome_receive order device
      · exact TsnGen.VerilatorReceiver.isSome_receive order device
  | close =>
      rcases device with
        (device | device | device) | (device | device | device)
      · obtain ⟨mSockFd, mIfIndex⟩ := device
        cases mSockFd with
        | _ =>
            rfl
      · rfl
      · rfl
      · rfl
      · rfl
      · rfl

/-- Replies tell whether a machine is open. -/
theorem isOpen_after
    {device : SenderDevice ⊕ ReceiverDevice}
    {calls : List AnsweredCall}
    (answers : (machine order).Answers device calls) :
    isOpenDevice ((machine order).after device calls) =
      calls.foldl stillOpen (isOpenDevice device) := by
  induction calls generalizing device with
  | nil =>
      rfl
  | cons call rest inductionHypothesis =>
      obtain ⟨isReply, later⟩ := answers
      have opened := @isOpen_perform order call.request call.offers device
      have sameReply :
          (perform order call.request call.offers device).1 = call.reply :=
        isReply
      rw [sameReply] at opened
      have others := inductionHypothesis later
      rw [List.foldl_cons, ← opened]
      exact others

/-- A transport whose number is open is open if it holds one. -/
theorem isOpen_view
    {transport : NumberedTransport}
    {table : HandleTable Description}
    (isOpen :
      ∀ number, transport.held = some number → table number ≠ none) :
    isOpenDevice (transport.view table) = transport.held.isSome := by
  have behind :
      (transport.held.bind table).isSome = transport.held.isSome := by
    cases isHeld : transport.held with
    | none =>
        rfl
    | some number =>
        exact Option.isSome_iff_ne_none.mpr (isOpen number isHeld)
  cases transport with
  | _ =>
      simp only [view, isOpenDevice, Option.isSome_map]
      exact behind

end NumberedTransport

namespace SharedTable

open NumberedTransport

variable {ι : Type}

/-- No transport is open, and what is open is other code's. -/
structure Unopened
    (start : SharedTable ι Description NumberedTransport) : Prop where
  closed : ∀ index, (start.objects index).held = none
  foreign : ∀ fd, start.foreign fd ↔ start.table fd ≠ none

/-- Before a transport is open the table is separate. -/
theorem Unopened.separate
    {start : SharedTable ι Description NumberedTransport}
    (unopened : start.Unopened)
    (order : ByteOrder) :
    Separate (descriptorClass order) start where
  heldOurs index fd held := by
    cases (unopened.closed index).symm.trans held
  distinct index other fd held := by
    cases (unopened.closed index).symm.trans held
  foreignOpen fd isForeign := (unopened.foreign fd).mp isForeign

variable [DecidableEq ι]

section Sample

/-- A sender and a receiver before they are opened; nothing else is open. -/
def twoTransports :
    SharedTable Bool Description NumberedTransport where
  table := .empty
  foreign _ := False
  objects receives :=
    if receives then .rawReceiver none else .verilatorSender none

/-- Streams without a byte. -/
def idleDescription : Description where
  outlet := { written := [], answers := [] }
  inlet := { unread := [], answers := [] }
  socket := { sent := [], refusals := [] }
  arrivals := []

/--
The sender is opened and closed; the receiver gets its number and is opened
again, which fails.
-/
def reusedNumber :
    List (SharedEvent Bool Description TransportRequest TransportReply) := [
  .call false (.openTransport none true) [some idleDescription]
    (.sender .success),
  .call false .close [] .closed,
  .call true (.openTransport (some 1) true) [some idleDescription]
    (.opened (.ok ())),
  .call false (.send { tvSec := 0, tvNsec := 0 } [0x01]) []
    (.sender .notOpen),
  .call true (.openTransport (some 1) true) [none]
    (.opened (.error .openFailed))]

/-- Both transports are closed. -/
theorem twoTransports_unopened :
    twoTransports.Unopened where
  closed := by
    decide
  foreign fd := by
    simp [twoTransports, HandleTable.empty]

/-- The calls can happen. -/
theorem exists_run_reusedNumber :
    ∃ world,
      Run (descriptorClass .little) twoTransports reusedNumber world := by
  have opened :=
    (@Run.start _ _ _ _ _ _ (descriptorClass .little) twoTransports).call
      false (.openTransport none true) [some idleDescription]
      (.sender .success)
      (@HandleProgram.Runs.acquired _ _ _ _ _ _ _ _ 3 rfl
        (.worked rfl .done))
  have closed := opened.call false .close [] .closed (.released rfl .done)
  have reused :=
    closed.call true (.openTransport (some 1) true) [some idleDescription]
      (.opened (.ok ()))
      (@HandleProgram.Runs.acquired _ _ _ _ _ _ _ _ 3 rfl
        (.worked rfl (.worked rfl .done)))
  have unsent :=
    reused.call false (.send { tvSec := 0, tvNsec := 0 } [0x01]) []
      (.sender .notOpen) .done
  have again :=
    unsent.call true (.openTransport (some 1) true) [none]
      (.opened (.error .openFailed)) (.refused .done)
  exact ⟨_, again⟩

end Sample

/--
Transports do not disturb each other.  In every state of every run of any number
of transports, in any order of their calls and of what other code does, each of
them has answered as the machine with streams of its own, and has the streams
that the machine would have.  None comes to use a descriptor that is not open,
and no two hold one descriptor or one of the other code.
-/
theorem transports_do_not_interfere
    (order : ByteOrder)
    {start world : SharedTable ι Description NumberedTransport}
    (unopened : start.Unopened)
    {events :
      List (SharedEvent ι Description TransportRequest TransportReply)}
    (run : Run (descriptorClass order) start events world) :
    (∀ index,
      (machine order).Answers ((start.objects index).view start.table)
          (callsOf index events) ∧
        (world.objects index).view world.table =
          (machine order).after ((start.objects index).view start.table)
            (callsOf index events)) ∧
      (∀ index request offers,
        ¬ HandleProgram.Faults (method order (world.objects index) request)
          offers world.table) ∧
      ∀ index fd,
        (world.objects index).held = some fd →
          world.Ours fd ∧
            ∀ other, (world.objects other).held = some fd →
              other = index := by
  have disciplined := disciplined order
  have separate := unopened.separate order
  have nowSeparate := separate.run disciplined run
  refine ⟨fun index => ?_, fun index request offers => ?_,
    fun index fd held => ⟨?_, fun other heldToo => ?_⟩⟩
  · exact answers_alone disciplined separate run index
  · exact nowSeparate.faultless disciplined index request offers
  · exact nowSeparate.heldOurs index fd held
  · exact nowSeparate.distinct other index fd heldToo held

theorem transports_do_not_interfere_reused :
    ∃ world,
      Run (descriptorClass .little) twoTransports reusedNumber world ∧
        (machine .little).Answers (.inl (.verilator { mSockFd := none }))
          (callsOf false reusedNumber) := by
  obtain ⟨world, run⟩ := exists_run_reusedNumber
  exact ⟨world, run,
    ((transports_do_not_interfere .little twoTransports_unopened run).1
      false).1⟩

/-- The replies tell whether a transport holds a descriptor. -/
theorem held_iff_openAfter
    {order : ByteOrder}
    {start world : SharedTable ι Description NumberedTransport}
    (unopened : start.Unopened)
    {events :
      List (SharedEvent ι Description TransportRequest TransportReply)}
    (run : Run (descriptorClass order) start events world)
    (index : ι) :
    (world.objects index).held.isSome = openAfter (callsOf index events) := by
  have separate := unopened.separate order
  have nowSeparate := separate.run (disciplined order) run
  obtain ⟨answers, same⟩ :=
    answers_alone (disciplined order) separate run index
  have openNow :
      isOpenDevice ((world.objects index).view world.table) =
        (world.objects index).held.isSome :=
    isOpen_view fun fd held => (nowSeparate.heldOurs index fd held).1
  have openAtStart :
      isOpenDevice ((start.objects index).view start.table) = false := by
    rw [isOpen_view fun fd held => (separate.heldOurs index fd held).1,
      unopened.closed index, Option.isSome_none]
  calc
    (world.objects index).held.isSome =
        isOpenDevice ((world.objects index).view world.table) :=
      openNow.symm
    _ = isOpenDevice
          ((machine order).after ((start.objects index).view start.table)
            (callsOf index events)) :=
      congrArg isOpenDevice same
    _ = (callsOf index events).foldl stillOpen
          (isOpenDevice ((start.objects index).view start.table)) :=
      isOpen_after answers
    _ = openAfter (callsOf index events) := by
      rw [openAtStart, openAfter]

/--
A descriptor is left behind exactly by opening again.  In a state of a run some
descriptor is open that neither a transport holds nor other code if and only if
a transport was opened between an opening that succeeded and the next close.
-/
theorem left_behind_iff_reopened
    (order : ByteOrder)
    {start world : SharedTable ι Description NumberedTransport}
    (unopened : start.Unopened)
    {events :
      List (SharedEvent ι Description TransportRequest TransportReply)}
    (run : Run (descriptorClass order) start events world) :
    (∃ fd, Stray (descriptorClass order) world fd) ↔
      ∃ index, Reopened (callsOf index events) := by
  induction run with
  | start =>
      constructor
      · rintro ⟨fd, ours, -⟩
        exact absurd ((unopened.foreign fd).mpr ours.1) ours.2
      · rintro ⟨index, earlier, call, later, split, -⟩
        simp [callsOf] at split
  | @step events event world after run step inductionHypothesis =>
      have separate :=
        (unopened.separate order).run (disciplined order) run
      have openNow := held_iff_openAfter unopened run
      constructor
      · rintro ⟨fd, stray⟩
        rcases stray.origin (disciplined order) separate step with
          earlier | ⟨caller, request, offers, reply, rfl, opening, held⟩
        · obtain ⟨index, reopened⟩ := inductionHypothesis.mp ⟨fd, earlier⟩
          refine ⟨index, ?_⟩
          rw [callsOf_append]
          exact reopened.append _
        · refine ⟨caller, ?_⟩
          rw [callsOf_append, callsOf_own]
          refine (reopened_append _ _).mpr (.inr ⟨opening, ?_⟩)
          rw [← openNow caller]
          exact Option.isSome_iff_exists.mpr ⟨fd, held⟩
      · rintro ⟨index, reopened⟩
        have persists
            (earlier : Reopened (callsOf index events)) :
            ∃ fd, Stray (descriptorClass order) after fd := by
          obtain ⟨fd, stray⟩ := inductionHypothesis.mpr ⟨index, earlier⟩
          exact ⟨fd, stray.step (disciplined order) separate step⟩
        rw [callsOf_append] at reopened
        cases event with
        | other =>
            rw [callsOf_other, List.append_nil] at reopened
            exact persists reopened
        | call caller request offers reply =>
            by_cases isCaller : caller = index
            · subst isCaller
              rw [callsOf_own] at reopened
              rcases (reopened_append _ _).mp reopened with
                earlier | ⟨opening, wasOpen⟩
              · exact persists earlier
              · rw [← openNow caller] at wasOpen
                obtain ⟨fd, held⟩ := Option.isSome_iff_exists.mp wasOpen
                exact ⟨fd, stray_of_reopened (disciplined order) separate
                  step opening held⟩
            · rw [callsOf_of_ne isCaller, List.append_nil] at reopened
              exact persists reopened

theorem left_behind_iff_reopened_reused :
    ∃ world,
      Run (descriptorClass .little) twoTransports reusedNumber world ∧
        ∃ fd, Stray (descriptorClass .little) world fd := by
  obtain ⟨world, run⟩ := exists_run_reusedNumber
  refine ⟨world, run,
    (left_behind_iff_reopened .little twoTransports_unopened run).mpr
      ⟨true, [_], _, [], rfl, rfl, ?_⟩⟩
  rfl

end SharedTable

end TsnGen
