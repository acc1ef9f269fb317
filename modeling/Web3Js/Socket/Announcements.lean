import Web3Js.Lib.Invariant

/-!
# Announcements of accounts and chains

On every connection the provider asks for the chain id and for the accounts.
The answers arrive independently, of one connection or of several, and are
compared with the cached ones: the chain id by its text, but the accounts by
their number only.
-/

namespace Web3Js.Socket

namespace Eip1193

inductive Event
  | chainChanged (chainId : String)
  | accountsChanged (accounts : List String)
  | connect (chainId : String)
  | error (message : String)

namespace Event

def isChainChanged : Event → Bool
  | .chainChanged _ => true
  | .accountsChanged _ | .connect _ | .error _ => false

def isAccountsChanged : Event → Bool
  | .accountsChanged _ => true
  | .chainChanged _ | .connect _ | .error _ => false

end Event

/-- What a request for the chain id or the accounts comes to; a result may be
missing. -/
inductive Answer (α : Type)
  | result (value : Option α)
  | rejected (message : String)

inductive Reply
  | chainId (answer : Answer String)
  | accounts (answer : Answer (List String))

def Reply.isChainId : Reply → Bool
  | .chainId _ => true
  | .accounts _ => false

/-- A reply to a request of a connection. -/
structure Delivery where
  connection : Nat
  reply : Reply

/-- The earlier reply is the one to the other request of the connection. -/
def Delivery.completes (delivery earlier : Delivery) : Bool :=
  earlier.connection == delivery.connection &&
    earlier.reply.isChainId != delivery.reply.isChainId

structure Provider where
  chainId : String := ""
  accounts : List String := []
  /-- The replies of the connections that wait for the other one. -/
  waiting : List Delivery := []

section Replies

def onChainId (provider : Provider) :
    Answer String → Provider × List Event
  | .result value =>
      let chainId := value.getD ""
      if chainId ≠ provider.chainId then
        ({ provider with chainId }, [.chainChanged chainId])
      else (provider, [])
  | .rejected message => (provider, [.error message])

def onAccounts (provider : Provider) :
    Answer (List String) → Provider × List Event
  | .result value =>
      let accounts := value.getD []
      if !(provider.accounts.length == accounts.length &&
          accounts.all fun account => accounts.contains account) then
        ({ provider with accounts }, [.accountsChanged accounts])
      else (provider, [])
  | .rejected message => (provider, [.error message])

/-- Both replies of a connection have been handled. -/
def onReplied (provider : Provider) (delivery : Delivery) :
    Provider × List Event :=
  if provider.waiting.any delivery.completes then
    ({ provider with
        waiting := provider.waiting.eraseP delivery.completes },
      [.connect provider.chainId])
  else
    ({ provider with waiting := delivery :: provider.waiting }, [])

def deliver (provider : Provider) (delivery : Delivery) :
    Provider × List Event :=
  let (handled, events) :=
    match delivery.reply with
    | .chainId answer => onChainId provider answer
    | .accounts answer => onAccounts provider answer
  let (finished, more) := onReplied handled delivery
  (finished, events ++ more)

def step (provider : Provider) (delivery : Delivery) : Provider :=
  (deliver provider delivery).1

end Replies

section Properties

/-- The other reply of the connection, where it came before. -/
def otherReply (provider : Provider) (delivery : Delivery) : Option Reply :=
  (provider.waiting.find? delivery.completes).map Delivery.reply

/-- The accounts of two lists, in whatever order and number. -/
def SameAccounts (left right : List String) : Prop :=
  ∀ account, account ∈ left ↔ account ∈ right

/-- The cache holds the result of a reply. -/
def Cached (provider : Provider) : Reply → Prop
  | .chainId (.result value) => provider.chainId = value.getD ""
  | .accounts (.result value) => provider.accounts = value.getD []
  | .chainId (.rejected _) | .accounts (.rejected _) => True

/-- The result is a chain id that is not the cached one. -/
def OtherChainId (provider : Provider) : Reply → Prop
  | .chainId (.result value) => value.getD "" ≠ provider.chainId
  | .chainId (.rejected _) | .accounts _ => False

/-- The result has accounts that are not the cached ones. -/
def OtherAccounts (provider : Provider) : Reply → Prop
  | .accounts (.result value) =>
      ¬SameAccounts provider.accounts (value.getD [])
  | .accounts (.rejected _) | .chainId _ => False

/-- A result is announced exactly if it differs from what is cached, and once
both replies of a connection have been handled the cache holds them. -/
structure Announced (provider : Provider) (delivery : Delivery) : Prop where
  chainChanged : (∃ event ∈ (deliver provider delivery).2,
    event.isChainChanged = true) ↔ OtherChainId provider delivery.reply
  accountsChanged : (∃ event ∈ (deliver provider delivery).2,
    event.isAccountsChanged = true) ↔ OtherAccounts provider delivery.reply
  cached : ∀ other ∈ otherReply provider delivery,
    Cached (step provider delivery) other ∧
      Cached (step provider delivery) delivery.reply

/-- As many accounts as are cached are the cached ones. -/
def NumberTells (provider : Provider) : Reply → Prop
  | .accounts (.result value) =>
      provider.accounts.length = (value.getD []).length ↔
        SameAccounts provider.accounts (value.getD [])
  | .accounts (.rejected _) | .chainId _ => True

/-- As many accounts as are cached are the cached list. -/
def NumberDecides (provider : Provider) : Reply → Prop
  | .accounts (.result value) =>
      provider.accounts.length = (value.getD []).length →
        provider.accounts = value.getD []
  | .accounts (.rejected _) | .chainId _ => True

/-- The number of the accounts tells whether they are the cached ones.  Where
the connection is complete then, it tells whether they are the cached list, and
no other connection has replaced the result of the reply that came before. -/
structure Tells (provider : Provider) (delivery : Delivery) : Prop where
  number : NumberTells provider delivery.reply
  complete : ∀ other ∈ otherReply provider delivery,
    Cached provider other ∧ NumberDecides provider delivery.reply

end Properties

section Steps

variable {provider : Provider}

theorem onReplied_caches (provider : Provider) (delivery : Delivery) :
    (onReplied provider delivery).1.chainId = provider.chainId ∧
      (onReplied provider delivery).1.accounts = provider.accounts := by
  unfold onReplied
  split
  · exact ⟨rfl, rfl⟩
  · exact ⟨rfl, rfl⟩

/-- That a connection is complete announces neither accounts nor a chain. -/
theorem onReplied_events {delivery : Delivery} {event : Event}
    (emitted : event ∈ (onReplied provider delivery).2) :
    event.isChainChanged = false ∧ event.isAccountsChanged = false := by
  unfold onReplied at emitted
  split at emitted
  · cases List.mem_singleton.mp emitted
    exact ⟨rfl, rfl⟩
  · cases emitted

theorem onAccounts_same {value : Option (List String)}
    (same : provider.accounts.length = (value.getD []).length) :
    onAccounts provider (.result value) = (provider, []) := by
  simp [onAccounts, same]

theorem onAccounts_other {value : Option (List String)}
    (other : provider.accounts.length ≠ (value.getD []).length) :
    onAccounts provider (.result value) =
      ({ provider with accounts := value.getD [] },
        [.accountsChanged (value.getD [])]) := by
  simp [onAccounts, other]

/-- What a reply does beyond its handler changes no cache and announces
neither accounts nor a chain. -/
structure Handled (handled : Provider × List Event)
    (delivered : Provider × List Event) : Prop where
  chainId : delivered.1.chainId = handled.1.chainId
  accounts : delivered.1.accounts = handled.1.accounts
  chainChanged : (∃ event ∈ delivered.2, event.isChainChanged = true) ↔
    ∃ event ∈ handled.2, event.isChainChanged = true
  accountsChanged :
    (∃ event ∈ delivered.2, event.isAccountsChanged = true) ↔
      ∃ event ∈ handled.2, event.isAccountsChanged = true

/-- Events of no such kind do not count. -/
theorem announces_append {kind : Event → Bool} {events more : List Event}
    (quiet : ∀ event ∈ more, kind event = false) :
    (∃ event ∈ events ++ more, kind event = true) ↔
      ∃ event ∈ events, kind event = true := by
  constructor
  · rintro ⟨event, emitted, announces⟩
    rcases List.mem_append.mp emitted with first | later
    · exact ⟨event, first, announces⟩
    · rw [quiet event later] at announces
      cases announces
  · rintro ⟨event, emitted, announces⟩
    exact ⟨event, List.mem_append_left _ emitted, announces⟩

theorem handled_onReplied (handled : Provider × List Event)
    (delivery : Delivery) :
    Handled handled ((onReplied handled.1 delivery).1,
      handled.2 ++ (onReplied handled.1 delivery).2) := by
  obtain ⟨chainId, accounts⟩ := onReplied_caches handled.1 delivery
  refine ⟨chainId, accounts, ?_, ?_⟩
  · apply announces_append
    intro event emitted
    exact (onReplied_events emitted).1
  · apply announces_append
    intro event emitted
    exact (onReplied_events emitted).2

/-- The two replies of a connection are of different kinds. -/
theorem isChainId_otherReply {delivery : Delivery} {other : Reply}
    (found : other ∈ otherReply provider delivery) :
    other.isChainId = !delivery.reply.isChainId := by
  obtain ⟨earlier, isEarlier, rfl⟩ := Option.map_eq_some_iff.mp found
  have completes := List.find?_some isEarlier
  rw [Delivery.completes, Bool.and_eq_true, bne_iff_ne] at completes
  exact Bool.eq_not_of_ne completes.2

/-- A reply with the chain id leaves the accounts in the cache alone. -/
theorem cached_accounts {after : Provider} {other : Reply}
    (kind : other.isChainId = false)
    (accounts : after.accounts = provider.accounts) :
    Cached after other ↔ Cached provider other := by
  cases other with
  | chainId => cases kind
  | accounts answer =>
      cases answer with
      | rejected => exact Iff.rfl
      | result value => rw [Cached, Cached, accounts]

/-- A reply with accounts leaves the chain id in the cache alone. -/
theorem cached_chainId {after : Provider} {other : Reply}
    (kind : other.isChainId = true)
    (chainId : after.chainId = provider.chainId) :
    Cached after other ↔ Cached provider other := by
  cases other with
  | accounts => cases kind
  | chainId answer =>
      cases answer with
      | rejected => exact Iff.rfl
      | result value => rw [Cached, Cached, chainId]

/-- A chain id is compared with the cached one and cached. -/
theorem onChainId_caches (provider : Provider) (answer : Answer String) :
    Cached (onChainId provider answer).1 (.chainId answer) ∧
      (onChainId provider answer).1.accounts = provider.accounts ∧
      ((∃ event ∈ (onChainId provider answer).2,
          event.isChainChanged = true) ↔
        OtherChainId provider (.chainId answer)) ∧
      ¬∃ event ∈ (onChainId provider answer).2,
        event.isAccountsChanged = true := by
  cases answer with
  | rejected message => simp [onChainId, Cached, OtherChainId,
      Event.isChainChanged, Event.isAccountsChanged]
  | result value =>
      rw [onChainId]
      split
      · rename_i differs
        simp [Cached, OtherChainId, differs, Event.isChainChanged,
          Event.isAccountsChanged]
      · rename_i same
        simp [Cached, OtherChainId, Decidable.not_not.mp same]

theorem announced_chainId_iff (connection : Nat) (answer : Answer String) :
    Announced provider { connection, reply := .chainId answer } ↔
      Tells provider { connection, reply := .chainId answer } := by
  have handled : Handled (onChainId provider answer)
      (deliver provider { connection, reply := .chainId answer }) :=
    handled_onReplied _ _
  obtain ⟨cached, accounts, changed, unchanged⟩ :=
    onChainId_caches provider answer
  have kept : ∀ other ∈ otherReply provider
      { connection, reply := .chainId answer },
      (Cached (step provider { connection, reply := .chainId answer }) other ↔
        Cached provider other) := by
    intro other found
    exact cached_accounts (isChainId_otherReply found)
      (handled.accounts.trans accounts)
  have now : Cached (step provider { connection, reply := .chainId answer })
      (.chainId answer) :=
    (cached_chainId rfl handled.chainId).mpr cached
  constructor
  · intro announced
    refine ⟨trivial, fun other found => ?_⟩
    exact ⟨(kept other found).mp (announced.cached other found).1, trivial⟩
  · intro tells
    refine ⟨handled.chainChanged.trans changed,
      handled.accountsChanged.trans (iff_of_false unchanged id),
      fun other found => ⟨?_, now⟩⟩
    exact (kept other found).mpr (tells.complete other found).1

/-- Accounts are announced exactly if their number tells whether they are
cached. -/
theorem onAccounts_announces (provider : Provider)
    (answer : Answer (List String)) :
    (((∃ event ∈ (onAccounts provider answer).2,
        event.isAccountsChanged = true) ↔
      OtherAccounts provider (.accounts answer)) ↔
        NumberTells provider (.accounts answer)) ∧
      (Cached (onAccounts provider answer).1 (.accounts answer) ↔
        NumberDecides provider (.accounts answer)) ∧
      (onAccounts provider answer).1.chainId = provider.chainId ∧
      ¬∃ event ∈ (onAccounts provider answer).2,
        event.isChainChanged = true := by
  cases answer with
  | rejected message => simp [onAccounts, Cached, OtherAccounts, NumberTells,
      NumberDecides, Event.isChainChanged, Event.isAccountsChanged]
  | result value =>
      by_cases same : provider.accounts.length = (value.getD []).length
      · rw [onAccounts_same same]
        simp [Cached, OtherAccounts, NumberTells, NumberDecides, same]
      · rw [onAccounts_other same]
        simp [Cached, OtherAccounts, NumberTells, NumberDecides, same,
          Event.isChainChanged, Event.isAccountsChanged]

theorem announced_accounts_iff (connection : Nat)
    (answer : Answer (List String)) :
    Announced provider { connection, reply := .accounts answer } ↔
      Tells provider { connection, reply := .accounts answer } := by
  have handled : Handled (onAccounts provider answer)
      (deliver provider { connection, reply := .accounts answer }) :=
    handled_onReplied _ _
  obtain ⟨announces, caches, chainId, unchanged⟩ :=
    onAccounts_announces provider answer
  have kept : ∀ other ∈ otherReply provider
      { connection, reply := .accounts answer },
      (Cached (step provider { connection, reply := .accounts answer }) other ↔
        Cached provider other) := by
    intro other found
    exact cached_chainId (isChainId_otherReply found)
      (handled.chainId.trans chainId)
  have now : Cached (step provider { connection, reply := .accounts answer })
      (.accounts answer) ↔ NumberDecides provider (.accounts answer) :=
    (cached_accounts rfl handled.accounts).trans caches
  constructor
  · intro announced
    refine ⟨announces.mp
      (handled.accountsChanged.symm.trans announced.accountsChanged),
      fun other found => ?_⟩
    obtain ⟨before, after⟩ := announced.cached other found
    exact ⟨(kept other found).mp before, now.mp after⟩
  · intro tells
    refine ⟨handled.chainChanged.trans (iff_of_false unchanged id),
      handled.accountsChanged.trans (announces.mpr tells.number),
      fun other found => ?_⟩
    obtain ⟨before, decides⟩ := tells.complete other found
    exact ⟨(kept other found).mpr before, now.mpr decides⟩

theorem announced_iff (provider : Provider) (delivery : Delivery) :
    Announced provider delivery ↔ Tells provider delivery := by
  obtain ⟨connection, reply⟩ := delivery
  cases reply with
  | chainId answer => exact announced_chainId_iff connection answer
  | accounts answer => exact announced_accounts_iff connection answer

end Steps

section Results

/-- Along a run of replies, results are announced exactly if they differ and
complete connections are cached, if and only if the number of the accounts
always tells and no connection replaces a result of another one that waits. -/
theorem announcements_iff (deliveries : List Delivery) :
    Run.Meets step Announced {} deliveries ↔
      Run.Meets step Tells {} deliveries :=
  Run.meets_congr announced_iff

/-- A connection on a chain with accounts. -/
def connected (connection : Nat) (chainId : String)
    (accounts : List String) : List Delivery :=
  [{ connection, reply := .chainId (.result (some chainId)) },
    { connection, reply := .accounts (.result (some accounts)) }]

/-- The accounts of a second connection in another order, and an answer of a
second connection between those of the first one. -/
example :
    (run step {} (connected 0 "0x1" ["Qa", "Qb"] ++
      connected 1 "0x1" ["Qb", "Qa"])).accounts = ["Qa", "Qb"] ∧
    (run step {} [{ connection := 0, reply := .chainId (.result "0x1") },
      { connection := 1, reply := .chainId (.result "0x2") },
      { connection := 0, reply := .accounts (.result none) }]).chainId =
        "0x2" := by
  decide

/-- After a connection with one account, the next one has another. -/
def otherAccount : List Delivery :=
  connected 0 "0x1" ["Qa"] ++ connected 1 "0x1" ["Qb"]

/-- The provider keeps the account of the first connection. -/
theorem not_announcements :
    ¬Run.Meets step Announced {} otherAccount ∧
      (run step {} otherAccount).accounts = ["Qa"] := by
  refine ⟨?_, rfl⟩
  rintro ⟨-, -, -, announced, -⟩
  have cached : ["Qa"] = ["Qb"] := (announced.cached _ rfl).2
  exact absurd cached (by decide)

end Results

end Eip1193

end Web3Js.Socket
