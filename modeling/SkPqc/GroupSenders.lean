import SkPqc.GroupEpoch
import SkPqc.KeySchedule
import SkPqc.Library.Interleaving

/-!
# The senders of a group

Every member that sends has a ratchet of its own, made from the secret of the epoch, and
counts its own messages. The secret is the same for all, and a key is told by its epoch and
its index. So the senders of an epoch share its keys: the key of an index serves once for
every member that gets to this index, and for no others (`key_serves`).

The bound on the messages of an epoch is a bound for each sender as well. When all ask their
ratchets before they send, an epoch has at most as many messages as the bound allows for each
of them (`messages_bounded`).
-/

set_option autoImplicit false

namespace SkPqc
namespace GroupRatchet

open Library Idealised

/-! ## Members and their messages -/

/-- The number and the secret of an epoch. -/
structure Epoch where
  number : UInt64
  secret : FixedBytes 32
  deriving DecidableEq

/-- What a member does with its ratchet. -/
inductive Move where
  /-- It takes the key of its next message. -/
  | send
  /-- It makes a ratchet for another epoch. -/
  | enter (epoch : Epoch) (now : Rat)
  deriving DecidableEq

/-- The epoch that a move enters. -/
def Move.entered : Move → Option Epoch
  | .send => none
  | .enter epoch _ => some epoch

/-- A message: the epoch of its sender's ratchet, its index and its key. -/
structure Message where
  epoch : Epoch
  index : UInt64
  key : Bytes
  deriving DecidableEq

def EpochRatchet.current (ratchet : EpochRatchet) : Epoch := ⟨ratchet.epoch, ratchet.epochSecret⟩

/-- The messages of one epoch. -/
def sentIn (epoch : Epoch) (messages : List Message) : List Message :=
  messages.filter fun message => message.epoch = epoch

section

variable (P : Primitives) (build : Build)

/-- The key of an index of an epoch. -/
def Epoch.key (epoch : Epoch) (index : UInt64) : Bytes :=
  deriveMessageKeyArr P epoch.secret epoch.number index

/-- A member under its own moves. Only the calls for a key have an outcome. -/
def member : Machine Move EpochRatchet (Option (Outcome GroupRatchetError (UInt64 × Bytes))) where
  step ratchet
    | .send =>
        let called := (EpochRatchet.nextOutboundKey P build).run ratchet
        (some called.1, called.2)
    | .enter epoch now => (none, .new epoch.number epoch.secret now)

/-- The message that a move sends. -/
def messageBy (_ : Move) (outcome : Option (Outcome GroupRatchetError (UInt64 × Bytes)))
    (ratchet : EpochRatchet) : Option Message :=
  match outcome with
  | some (.ok (index, key)) => some ⟨ratchet.current, index, key⟩
  | _ => none

variable {ρ : Type} [DecidableEq ρ]

/-- The ratchets of members that have each entered an epoch. -/
def ratchets (first : ρ → Epoch) (now : ρ → Rat) (name : ρ) : EpochRatchet :=
  .new (first name).number (first name).secret (now name)

/-- The members of a group, each with a ratchet of its own. -/
def group : Machine (ρ × Move) (ρ → EpochRatchet)
    (Option (Outcome GroupRatchetError (UInt64 × Bytes))) :=
  Machine.interleaved fun _ => member P build

/-- The messages of all members, each with its sender. -/
def messages (states : ρ → EpochRatchet) (events : List (ρ × Move)) : List (ρ × Message) :=
  Machine.interleavedLog (fun _ => member P build) messageBy states events

/-- The senders of the messages that have this key. -/
def usersOf (key : Bytes) (messages : List (ρ × Message)) : List ρ :=
  (messages.filter fun message => message.2.key = key).map Prod.fst

end

/-! ## One member -/

section

variable {P : Primitives} {build : Build} {past : List Message} {entered : List Epoch}
  {ratchet : EpochRatchet} {message : Message} {epoch : Epoch} {moves : List Move}

theorem sentIn_append (epoch : Epoch) (first second : List Message) :
    sentIn epoch (first ++ second) = sentIn epoch first ++ sentIn epoch second :=
  List.filter_append ..

theorem sentIn_singleton (epoch : Epoch) (message : Message) :
    sentIn epoch [message] = if message.epoch = epoch then [message] else [] := by
  simp only [sentIn, List.filter_cons, List.filter_nil, decide_eq_true_eq]

theorem length_sentIn_append (epoch : Epoch) (past : List Message) (message : Message) :
    (sentIn epoch (past ++ [message])).length =
      (sentIn epoch past).length + if message.epoch = epoch then 1 else 0 := by
  rw [sentIn_append, sentIn_singleton, List.length_append]
  split <;> rfl

/-- The messages that a member has sent are numbered from zero in each epoch, and its ratchet
goes on from there. -/
structure Numbered (P : Primitives) (build : Build) (past : List Message) (entered : List Epoch)
    (ratchet : EpochRatchet) : Prop where
  present : ratchet.current ∈ entered
  known : ∀ message ∈ past, message.epoch ∈ entered
  keyed : ∀ message ∈ past, message.key = message.epoch.key P message.index
  indices : ∀ epoch, (sentIn epoch past).map Message.index =
    (List.range (sentIn epoch past).length).map UInt64.ofNat
  counter : ratchet.messageIndex = UInt64.ofNat (sentIn ratchet.current past).length
  room : build.overflowChecks = true → ∀ epoch, (sentIn epoch past).length < 2 ^ 64

/-- A member that has entered its first epoch. -/
theorem Numbered.new (P : Primitives) (build : Build) (epoch : Epoch) (now : Rat) :
    Numbered P build [] [epoch] (.new epoch.number epoch.secret now) where
  present := List.mem_singleton_self epoch
  known _ impossible := by cases impossible
  keyed _ impossible := by cases impossible
  indices _ := rfl
  counter := rfl
  room _ _ := Nat.two_pow_pos 64

/-- No message of an epoch was sent before it was entered. -/
theorem Numbered.sentIn_eq_nil (numbered : Numbered P build past entered ratchet)
    (fresh : epoch ∉ entered) : sentIn epoch past = [] := by
  apply List.filter_eq_nil_iff.mpr
  intro message found same
  have epochs : message.epoch = epoch := of_decide_eq_true same
  exact fresh (epochs ▸ numbered.known message found)

/-- A new epoch begins with index zero. -/
theorem Numbered.enter (numbered : Numbered P build past entered ratchet)
    (fresh : epoch ∉ entered) (now : Rat) :
    Numbered P build past (entered ++ [epoch]) (.new epoch.number epoch.secret now) where
  present := List.mem_append_right _ (List.mem_singleton_self epoch)
  known message found := List.mem_append_left _ (numbered.known message found)
  keyed := numbered.keyed
  indices := numbered.indices
  counter := by
    have none := numbered.sentIn_eq_nil fresh
    rw [EpochRatchet.current, EpochRatchet.new, none]
    rfl
  room := numbered.room

/-- The next message has the next number. -/
theorem Numbered.send (numbered : Numbered P build past entered ratchet)
    (room : build.overflowChecks = true → ratchet.messageIndex.toNat + 1 < 2 ^ 64) :
    let message : Message := ⟨ratchet.current, ratchet.messageIndex,
      ratchet.messageKey P ratchet.messageIndex⟩
    Numbered P build (past ++ [message]) entered
      { ratchet with messageIndex := ratchet.messageIndex + 1 } := by
  intro message
  refine ⟨numbered.present, ?_, ?_, ?_, ?_, ?_⟩
  · intro other found
    rcases List.mem_append.mp found with earlier | new
    · exact numbered.known other earlier
    · rw [List.mem_singleton.mp new]
      exact numbered.present
  · intro other found
    rcases List.mem_append.mp found with earlier | new
    · exact numbered.keyed other earlier
    · rw [List.mem_singleton.mp new]
      rfl
  · intro epoch
    rw [length_sentIn_append, sentIn_append, List.map_append, numbered.indices, sentIn_singleton]
    by_cases same : message.epoch = epoch
    · subst same
      rw [if_pos rfl, if_pos rfl, List.range_succ, List.map_append, List.map_cons, List.map_nil,
        List.map_cons, List.map_nil]
      exact congrArg (fun index => _ ++ [index]) numbered.counter
    · rw [if_neg same, if_neg same]
      exact List.append_nil _
  · change ratchet.messageIndex + 1 = UInt64.ofNat (sentIn ratchet.current _).length
    rw [length_sentIn_append, if_pos rfl, UInt64.ofNat_add, ← numbered.counter]
    rfl
  · intro checked epoch
    have below := numbered.room checked epoch
    rw [length_sentIn_append]
    by_cases same : message.epoch = epoch
    · subst same
      have next := room checked
      change (sentIn ratchet.current past).length < 2 ^ 64 at below
      rw [numbered.counter, UInt64.toNat_ofNat_of_lt' below] at next
      rw [if_pos rfl]
      exact next
    · rw [if_neg same]
      exact below

/-- **One move keeps the numbering**, when it enters no epoch a second time. -/
theorem Numbered.step (numbered : Numbered P build past entered ratchet) (move : Move)
    (fresh : ∀ epoch, move.entered = some epoch → epoch ∉ entered) :
    Numbered P build
      (past ++ (messageBy move ((member P build).step ratchet move).1
        ((member P build).step ratchet move).2).toList)
      (entered ++ move.entered.toList) ((member P build).step ratchet move).2 := by
  cases move with
  | send =>
      have called := @run_nextOutboundKey P build ratchet
      change Numbered P build (past ++ (messageBy .send (some ((sending P build).step ratchet ()).1)
        ((sending P build).step ratchet ()).2).toList) (entered ++ [])
        ((sending P build).step ratchet ()).2
      rw [List.append_nil]
      rcases called with ⟨step, room⟩ | ⟨step, -⟩
      · rw [step]
        exact numbered.send room
      · rw [step]
        simpa only [messageBy, Option.toList_none, List.append_nil] using numbered
  | enter epoch now =>
      have next := numbered.enter (fresh epoch rfl) now
      simpa only [member, messageBy, Option.toList_none, List.append_nil, Move.entered,
        Option.toList_some] using next

theorem entered_cons (move : Move) (rest : List Move) :
    move.entered.toList ++ rest.filterMap Move.entered =
      (move :: rest).filterMap Move.entered := by
  cases move with
  | send => rfl
  | enter epoch now => rfl

/-- Of moves that enter no epoch twice, the first one enters none that was entered before. -/
theorem fresh_cons {move : Move} {rest : List Move}
    (fresh : (entered ++ (move :: rest).filterMap Move.entered).Nodup) :
    (∀ epoch, move.entered = some epoch → epoch ∉ entered) ∧
      (entered ++ move.entered.toList ++ rest.filterMap Move.entered).Nodup := by
  rw [← entered_cons] at fresh
  constructor
  · intro epoch enters found
    rw [enters] at fresh
    exact (List.nodup_append.mp fresh).2.2 epoch found epoch List.mem_cons_self rfl
  · rw [List.append_assoc]
    exact fresh

/-- Every run of a member keeps it. -/
theorem Numbered.final (numbered : Numbered P build past entered ratchet)
    (fresh : (entered ++ moves.filterMap Move.entered).Nodup) :
    Numbered P build (past ++ (member P build).log messageBy ratchet moves)
      (entered ++ moves.filterMap Move.entered) ((member P build).final ratchet moves) := by
  induction moves generalizing past entered ratchet with
  | nil =>
      rw [Machine.log_nil, List.filterMap_nil, List.append_nil, List.append_nil]
      exact numbered
  | cons move rest ih =>
      obtain ⟨once, fresh'⟩ := fresh_cons fresh
      have later := ih (numbered.step move once) fresh'
      rw [List.append_assoc, List.append_assoc, entered_cons] at later
      exact later

/-- A message key tells its epoch and index. -/
theorem Epoch.key_inj (hkdf : P.HkdfInjective) {epoch epoch' : Epoch} {index index' : UInt64}
    (same : epoch.key P index = epoch'.key P index') : epoch = epoch' ∧ index = index' := by
  obtain ⟨salts, secrets, infos⟩ := hkdf _ _ _ _ _ _ same
  have sameSalt := KeySchedule.hmacPad_inj_of_length (by simp) salts
  have numbers := u64ToBe_injective (List.append_cancel_left sameSalt)
  refine ⟨?_, u64ToBe_injective (List.append_cancel_left infos)⟩
  cases epoch
  cases epoch'
  cases numbers
  cases Subtype.ext secrets
  rfl

/-- The numbers up to a limit, as machine words. -/
theorem count_map_ofNat_range {limit : Nat} (few : limit ≤ 2 ^ 64) (index : UInt64) :
    ((List.range limit).map UInt64.ofNat).count index = if index.toNat < limit then 1 else 0 := by
  have nodup : ((List.range limit).map UInt64.ofNat).Nodup := by
    refine List.Nodup.map_on ?_ List.nodup_range
    intro first inside second inside' same
    have numbers := congrArg UInt64.toNat same
    rw [UInt64.toNat_ofNat_of_lt' (Nat.lt_of_lt_of_le (List.mem_range.mp inside) few),
      UInt64.toNat_ofNat_of_lt' (Nat.lt_of_lt_of_le (List.mem_range.mp inside') few)] at numbers
    exact numbers
  have found : index ∈ (List.range limit).map UInt64.ofNat ↔ index.toNat < limit := by
    constructor
    · intro member
      obtain ⟨number, inside, rfl⟩ := List.mem_map.mp member
      have below := List.mem_range.mp inside
      rw [UInt64.toNat_ofNat_of_lt' (Nat.lt_of_lt_of_le below few)]
      exact below
    · intro below
      exact List.mem_map.mpr ⟨index.toNat, List.mem_range.mpr below, UInt64.ofNat_toNat⟩
  rw [nodup.count]
  exact if_congr found rfl rfl

/-- **How often a member uses a key**: once, when it has sent enough messages in its epoch. -/
theorem Numbered.count_key (numbered : Numbered P build past entered ratchet)
    (hkdf : P.HkdfInjective) (few : (sentIn epoch past).length ≤ 2 ^ 64) (index : UInt64) :
    (past.map Message.key).count (epoch.key P index) =
      if index.toNat < (sentIn epoch past).length then 1 else 0 := by
  have own : ∀ message ∈ past, (message.key == epoch.key P index) =
      (message.index == index && decide (message.epoch = epoch)) := by
    intro message found
    rw [numbered.keyed message found, Bool.eq_iff_iff]
    simp only [beq_iff_eq, Bool.and_eq_true, decide_eq_true_eq]
    constructor
    · intro same
      exact (Epoch.key_inj hkdf same).symm
    · rintro ⟨rfl, rfl⟩
      rfl
  calc (past.map Message.key).count (epoch.key P index)
      = past.countP fun message => message.key == epoch.key P index := by
        rw [List.count, List.countP_map]
        rfl
    _ = past.countP fun message => message.index == index && decide (message.epoch = epoch) := by
        apply List.countP_congr
        intro message found
        rw [own message found]
    _ = ((sentIn epoch past).map Message.index).count index := by
        rw [List.count, List.countP_map, sentIn, List.countP_filter]
        rfl
    _ = if index.toNat < (sentIn epoch past).length then 1 else 0 := by
        rw [numbered.indices, count_map_ofNat_range few]

end

/-! ## All members -/

section

variable {P : Primitives} {build : Build} {ρ : Type} [DecidableEq ρ] {first : ρ → Epoch}
  {now : ρ → Rat} {events : List (ρ × Move)}

/-- The sender of a key is counted as often as it has used it. -/
theorem count_usersOf (key : Bytes) (messages : List (ρ × Message)) (name : ρ) :
    (usersOf key messages).count name =
      ((inputsOf name messages).map Message.key).count key := by
  induction messages with
  | nil => rfl
  | cons message rest ih =>
      obtain ⟨sender, message⟩ := message
      have head : usersOf key ((sender, message) :: rest) =
          if message.key = key then sender :: usersOf key rest else usersOf key rest := by
        simp only [usersOf, List.filter_cons, decide_eq_true_eq]
        split <;> rfl
      rw [head]
      by_cases same : sender = name
      · subst same
        rw [inputsOf_cons_self, List.map_cons]
        by_cases used : message.key = key
        · rw [if_pos used, List.count_cons, List.count_cons, ih, used, beq_self_eq_true,
            beq_self_eq_true]
        · rw [if_neg used, ih, List.count_cons_of_ne used]
      · rw [inputsOf_cons_of_ne same]
        by_cases used : message.key = key
        · rw [if_pos used, List.count_cons_of_ne same, ih]
        · rw [if_neg used, ih]

/-- Every member numbers its messages. -/
theorem numbered_messages
    (fresh : ∀ name, (first name :: (inputsOf name events).filterMap Move.entered).Nodup)
    (name : ρ) :
    Numbered P build (inputsOf name (messages P build (ratchets first now) events))
      (first name :: (inputsOf name events).filterMap Move.entered)
      ((group P build).final (ratchets first now) events name) := by
  have alone := (Numbered.new P build (first name) (now name)).final (fresh name)
  rw [messages, Machine.inputsOf_interleavedLog, group, Machine.final_interleaved]
  exact alone

/-- A member sends no more messages than there are events. -/
theorem length_sentIn_le (states : ρ → EpochRatchet) (events : List (ρ × Move)) (name : ρ)
    (epoch : Epoch) :
    (sentIn epoch (inputsOf name (messages P build states events))).length ≤ events.length := by
  have logged : ∀ (ratchet : EpochRatchet) (moves : List Move),
      ((member P build).log messageBy ratchet moves).length ≤ moves.length := by
    intro ratchet moves
    induction moves generalizing ratchet with
    | nil => exact Nat.le_refl 0
    | cons move rest ih =>
        rw [Machine.log_cons, List.length_append, List.length_cons, Nat.add_comm]
        exact Nat.add_le_add (ih _) Option.length_toList_le
  calc (sentIn epoch (inputsOf name (messages P build states events))).length
      ≤ (inputsOf name (messages P build states events)).length := List.length_filter_le _ _
    _ ≤ (inputsOf name events).length := by
        rw [messages, Machine.inputsOf_interleavedLog]
        exact logged _ _
    _ ≤ events.length := length_inputsOf_le name events

/-- **What a key serves for.** The key of an index of an epoch serves once for each member
that sends a message of this index, and for no others, whatever the order of all moves. -/
theorem key_serves (hkdf : P.HkdfInjective)
    (fresh : ∀ name, (first name :: (inputsOf name events).filterMap Move.entered).Nodup)
    (counted : build.overflowChecks = true ∨ events.length ≤ 2 ^ 64) (epoch : Epoch)
    (index : UInt64) :
    let sent := messages P build (ratchets first now) events
    let users := usersOf (epoch.key P index) sent
    users.Nodup ∧
      ∀ name, name ∈ users ↔ index.toNat < (sentIn epoch (inputsOf name sent)).length := by
  intro sent users
  have count : ∀ name, users.count name =
      if index.toNat < (sentIn epoch (inputsOf name sent)).length then 1 else 0 := by
    intro name
    have numbered : Numbered P build (inputsOf name sent) _ _ := numbered_messages fresh name
    have few : (sentIn epoch (inputsOf name sent)).length ≤ 2 ^ 64 := by
      rcases counted with checked | short
      · exact Nat.le_of_lt (numbered.room checked epoch)
      · exact Nat.le_trans (length_sentIn_le _ events name epoch) short
    rw [count_usersOf, numbered.count_key hkdf few]
  constructor
  · apply List.nodup_iff_count_le_one.mpr
    intro name
    rw [count]
    split
    · exact Nat.le_refl 1
    · exact Nat.zero_le 1
  · intro name
    rw [← List.count_pos_iff, count]
    split
    · rename_i below
      exact iff_of_true Nat.one_pos below
    · rename_i above
      exact iff_of_false (Nat.lt_irrefl 0) above

/-! ## The bound on the messages of an epoch -/

/-- A member sends while its ratchet does not say that the epoch should re-key. -/
def Asks (ratchet : EpochRatchet) (move : Move) : Prop :=
  move = .send → ∃ now, ratchet.shouldRekey now = false

theorem EpochRatchet.messageIndex_lt {ratchet : EpochRatchet} {now : Rat}
    (young : ratchet.shouldRekey now = false) :
    ratchet.messageIndex < ratchet.rekeyMsgBound := by
  unfold EpochRatchet.shouldRekey at young
  split at young
  · cases young
  · rename_i below
    exact UInt64.not_le.mp below

/-- A young ratchet below its bound lets its member send. -/
theorem asks_of_messageIndex_lt {ratchet : EpochRatchet} (move : Move)
    (below : ratchet.messageIndex < ratchet.rekeyMsgBound) (aging : 0 < ratchet.rekeyAgeSeconds) :
    Asks ratchet move := by
  intro _
  have age : (0 : Rat) < (ratchet.rekeyAgeSeconds.toNat : Rat) :=
    Rat.natCast_pos.mpr (UInt64.lt_iff_toNat_lt.mp aging)
  refine ⟨ratchet.epochStartedAt, ?_⟩
  rw [EpochRatchet.shouldRekey, if_neg (UInt64.not_le.mpr below), sub_self]
  exact decide_eq_false (not_le.mpr age)

/-- The ratchet has the default bound, and no epoch more messages than that. -/
structure Bounded (past : List Message) (ratchet : EpochRatchet) : Prop where
  bound : ratchet.rekeyMsgBound = defaultRekeyMsgBound
  few : ∀ epoch, (sentIn epoch past).length ≤ defaultRekeyMsgBound.toNat

/-- **A member that asks stays within the bound.** -/
theorem Bounded.step {past : List Message} {entered : List Epoch} {ratchet : EpochRatchet}
    (bounded : Bounded past ratchet) (numbered : Numbered P build past entered ratchet)
    (move : Move) (asks : Asks ratchet move) :
    Bounded (past ++ (messageBy move ((member P build).step ratchet move).1
      ((member P build).step ratchet move).2).toList) ((member P build).step ratchet move).2 := by
  cases move with
  | send =>
      obtain ⟨now, young⟩ := asks rfl
      have below := UInt64.lt_iff_toNat_lt.mp (EpochRatchet.messageIndex_lt young)
      have short := bounded.few ratchet.current
      have room : (sentIn ratchet.current past).length < 2 ^ 64 :=
        Nat.lt_of_le_of_lt short defaultRekeyMsgBound.toNat_lt
      rw [numbered.counter, UInt64.toNat_ofNat_of_lt' room, bounded.bound] at below
      change Bounded (past ++ (messageBy .send (some ((sending P build).step ratchet ()).1)
        ((sending P build).step ratchet ()).2).toList) ((sending P build).step ratchet ()).2
      rcases @run_nextOutboundKey P build ratchet with ⟨step, -⟩ | ⟨step, -⟩
      · rw [step]
        refine ⟨bounded.bound, fun epoch => ?_⟩
        change (sentIn epoch (past ++ [⟨ratchet.current, _, _⟩])).length ≤ _
        rw [length_sentIn_append]
        by_cases same : ratchet.current = epoch
        · subst same
          rw [if_pos rfl]
          exact below
        · rw [if_neg same]
          exact bounded.few epoch
      · rw [step]
        simpa only [messageBy, Option.toList_none, List.append_nil] using bounded
  | enter epoch now =>
      refine ⟨rfl, ?_⟩
      simpa only [member, messageBy, Option.toList_none, List.append_nil] using bounded.few

/-- Every run of a member that asks. -/
theorem Bounded.final {past : List Message} {entered : List Epoch} {ratchet : EpochRatchet}
    {moves : List Move} (bounded : Bounded past ratchet)
    (numbered : Numbered P build past entered ratchet)
    (fresh : (entered ++ moves.filterMap Move.entered).Nodup)
    (guarded : (member P build).Guarded Asks ratchet moves) :
    Bounded (past ++ (member P build).log messageBy ratchet moves)
      ((member P build).final ratchet moves) := by
  induction moves generalizing past entered ratchet with
  | nil =>
      rw [Machine.log_nil, List.append_nil]
      exact bounded
  | cons move rest ih =>
      obtain ⟨asks, later⟩ := Machine.guarded_cons.mp guarded
      obtain ⟨once, fresh'⟩ := fresh_cons fresh
      have next := ih (bounded.step numbered move asks) (numbered.step move once) fresh' later
      rw [List.append_assoc] at next
      exact next

/-- **The messages of an epoch are bounded** when every member asks its ratchet before it
sends: for each sender by the bound of one ratchet, and in all by this bound for each of
them. -/
theorem messages_bounded
    (fresh : ∀ name, (first name :: (inputsOf name events).filterMap Move.entered).Nodup)
    (guarded : (group P build).Guarded (fun states event => Asks (states event.1) event.2)
      (ratchets first now) events) {members : List ρ}
    (own : ∀ event ∈ events, event.1 ∈ members) (epoch : Epoch) :
    let sent := messages P build (ratchets first now) events
    (∀ name, (sentIn epoch (inputsOf name sent)).length ≤ defaultRekeyMsgBound.toNat) ∧
      (sent.filter fun message => message.2.epoch = epoch).length ≤
        members.length * defaultRekeyMsgBound.toNat := by
  intro sent
  have logs : ∀ name, inputsOf name sent = (member P build).log messageBy
      (ratchets first now name) (inputsOf name events) :=
    fun name => Machine.inputsOf_interleavedLog _ _ _ _ name
  have each : ∀ name, (sentIn epoch (inputsOf name sent)).length ≤
      defaultRekeyMsgBound.toNat := by
    intro name
    have start : Bounded [] (ratchets first now name) := ⟨rfl, fun _ => Nat.zero_le _⟩
    have alone := start.final (Numbered.new P build (first name) (now name)) (fresh name)
      (Machine.guarded_inputsOf guarded name)
    rw [logs]
    exact alone.few epoch
  refine ⟨each, length_le_of_inputsOf ?_ ?_⟩
  · rintro ⟨name, message⟩ found
    have logged := mem_inputsOf.mpr (List.mem_filter.mp found).1
    rw [logs] at logged
    cases moved : inputsOf name events with
    | nil =>
        rw [moved] at logged
        cases logged
    | cons move rest =>
        have event : move ∈ inputsOf name events := by
          rw [moved]
          exact List.mem_cons_self
        exact own _ (mem_inputsOf.mp event)
  · intro name
    rw [inputsOf_filter (fun message : Message => decide (message.epoch = epoch))]
    exact each name

end

/-! ## Two members -/

/-- The epochs that the members enter. -/
def sampleEpoch (number : UInt64) : Epoch := ⟨number, .fill 32 5⟩

/-- Two members send in one epoch, and then one of them in the next. -/
def twoSenders : List (Bool × Move) :=
  [(false, .send), (true, .send), (false, .send), (true, .enter (sampleEpoch 1) 0), (true, .send)]

theorem fresh_twoSenders (name : Bool) :
    (sampleEpoch 0 :: (inputsOf name twoSenders).filterMap Move.entered).Nodup := by
  cases name with
  | false => decide
  | true => decide

/-- Both members use the first key of the epoch, and one of them the second. -/
theorem key_serves_two :
    let P := primitives (logged [])
    let sent := messages P ⟨true, .w64⟩ (ratchets (fun _ => sampleEpoch 0) fun _ => 0) twoSenders
    (false ∈ usersOf ((sampleEpoch 0).key P 0) sent ∧
        true ∈ usersOf ((sampleEpoch 0).key P 0) sent) ∧
      false ∈ usersOf ((sampleEpoch 0).key P 1) sent ∧
        true ∉ usersOf ((sampleEpoch 0).key P 1) sent := by
  intro P sent
  have serves := fun index => @key_serves P ⟨true, .w64⟩ Bool _ (fun _ => sampleEpoch 0)
    (fun _ => 0) twoSenders hkdfInjective fresh_twoSenders (.inl rfl) (sampleEpoch 0) index
  have lengths : (sentIn (sampleEpoch 0) (inputsOf false sent)).length = 2 ∧
      (sentIn (sampleEpoch 0) (inputsOf true sent)).length = 1 := by
    decide +kernel
  have users := fun index => (serves index).2
  refine ⟨⟨?_, ?_⟩, ?_, ?_⟩
  · rw [users, lengths.1]
    decide
  · rw [users, lengths.2]
    decide
  · rw [users, lengths.1]
    decide
  · rw [users, lengths.2]
    decide

/-- Both members ask before they send. -/
theorem messages_bounded_two :
    let P := primitives (logged [])
    let sent := messages P ⟨true, .w64⟩ (ratchets (fun _ => sampleEpoch 0) fun _ => 0) twoSenders
    (sentIn (sampleEpoch 0) (inputsOf true sent)).length ≤ 50 ∧
      (sent.filter fun message => message.2.epoch = sampleEpoch 0).length ≤ 2 * 50 := by
  intro P sent
  have guarded : (group P ⟨true, .w64⟩).Guarded (fun states event => Asks (states event.1) event.2)
      (ratchets (fun _ => sampleEpoch 0) fun _ => 0) twoSenders := by
    refine .cons ?_ (.cons ?_ (.cons ?_ (.cons ?_ (.cons ?_ .nil))))
    all_goals exact asks_of_messageIndex_lt _ (by decide +kernel) (by decide +kernel)
  have bounded := @messages_bounded P ⟨true, .w64⟩ Bool _ (fun _ => sampleEpoch 0) (fun _ => 0)
    twoSenders fresh_twoSenders guarded [false, true] (by decide) (sampleEpoch 0)
  exact ⟨bounded.1 true, bounded.2⟩

end GroupRatchet
end SkPqc
