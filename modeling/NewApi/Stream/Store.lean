import Mathlib.Data.List.Range
import Mathlib.Data.List.Perm.Subperm
import NewApi.Lib.Table
import NewApi.Stream.Frames

/-!
# The frame store

The frames of one attempt are the entries of a Redis stream. The id of an entry is
`<sequence>-<generation>`, with a generation that no two appends share. A hash beside the stream
says for every sequence who owns it: an append by its rollback token, or nobody once it is sealed.

What the three scripts keep is part of the type `AttemptStore`: the entries are in the order of
their sequences, which are at most `maxEvents`, and each is named by the hash. Whether an append
hits the byte limit is an argument (`full`).
-/

namespace NewApi

/-- `StreamRecoveryFrame`. Its Redis id is made of the sequence and the
generation. -/
structure StreamRecoveryFrame where
  sequence : Nat
  data : List Char
  terminal : Bool
  rollbackToken : String
  generation : Nat
deriving DecidableEq

def StreamRecoveryFrame.redisId (f : StreamRecoveryFrame) : Nat × Nat := (f.sequence, f.generation)

/-- The owner of a sequence, `token|id` or `sealed|id`. -/
inductive FrameOwner
  | token (rollbackToken : String) (redisId : Nat × Nat)
  | sealed (redisId : Nat × Nat)
deriving DecidableEq

def FrameOwner.redisId : FrameOwner → Nat × Nat
  | .token _ id => id
  | .sealed id => id

/-- The frames of one attempt. -/
structure AttemptStore (maxEvents : Nat) where
  entries : List StreamRecoveryFrame
  owners : Nat → Option FrameOwner
  lastId : Nat × Nat
  generation : Nat
  sorted : (entries.map StreamRecoveryFrame.sequence).Pairwise (· < ·)
  sequence_le : ∀ e ∈ entries, 0 < e.sequence ∧ e.sequence ≤ maxEvents ∧ e.sequence ≤ lastId.1
  generation_le : ∀ e ∈ entries, 0 < e.generation ∧ e.generation ≤ generation
  owned : ∀ e ∈ entries, ∃ o, owners e.sequence = some o ∧ o.redisId = e.redisId

inductive AppendError
  | notPositive
  /-- `ErrStreamRecoveryEventLimit`. -/
  | eventLimit
  /-- `ErrStreamRecoveryFrameChanged`, for `STREAM_RECOVERY_SEQUENCE_EXISTS`. -/
  | frameChanged
  /-- `ErrStreamRecoveryByteLimit`. -/
  | byteLimit
  /-- `XADD` refuses an id that is not above the last one. -/
  | idTooSmall
deriving DecidableEq

/-- The answers of the rollback and the seal script: 1, 0 and -1. -/
inductive ScriptResult
  | done
  /-- `ErrStreamRecoveryFrameNotFound`. -/
  | notFound
  /-- `ErrStreamRecoveryFrameChanged`. -/
  | changed
deriving DecidableEq

namespace AttemptStore

variable {maxEvents : Nat}

def empty : AttemptStore maxEvents where
  entries := []
  owners _ := none
  lastId := (0, 0)
  generation := 0
  sorted := .nil
  sequence_le := by simp
  generation_le := by simp
  owned := by simp

def table (s : AttemptStore maxEvents) : Table StreamRecoveryFrame.sequence :=
  ⟨s.entries, s.sorted.nodup⟩

def find (s : AttemptStore maxEvents) (n : Nat) : Option StreamRecoveryFrame := s.table.find n

variable {e : StreamRecoveryFrame} {s : AttemptStore maxEvents}

theorem find_eq_some {n : Nat} : s.find n = some e ↔ e ∈ s.entries ∧ e.sequence = n := by
  constructor
  · intro h
    exact ⟨Table.find_mem h, Table.find_key h⟩
  · rintro ⟨he, rfl⟩
    exact Table.find_of_mem (t := s.table) he

theorem eq_of_sequence_eq {f : StreamRecoveryFrame} (he : e ∈ s.entries) (hf : f ∈ s.entries)
    (h : e.sequence = f.sequence) : e = f := by
  have h1 := find_eq_some.mpr ⟨he, h⟩
  have h2 := find_eq_some.mpr ⟨hf, rfl⟩
  exact Option.some.inj (h1.symm.trans h2)

/-! ## The scripts -/

variable (s)

/-- The generation that an append takes, whether or not it goes on. -/
def bump : AttemptStore maxEvents where
  entries := s.entries
  owners := s.owners
  lastId := s.lastId
  generation := s.generation + 1
  sorted := s.sorted
  sequence_le := s.sequence_le
  generation_le e he := ⟨(s.generation_le e he).1, Nat.le_succ_of_le (s.generation_le e he).2⟩
  owned := s.owned

/-- `XADD` of a frame with a new sequence and an id above the last one, and the
owner of its sequence. -/
def add (f : StreamRecoveryFrame) (hpos : 0 < f.sequence) (hmax : f.sequence ≤ maxEvents)
    (hfree : s.owners f.sequence = none) (hgen : f.generation = s.generation + 1)
    (hid : s.lastId.1 ≤ f.sequence) :
    AttemptStore maxEvents where
  entries := s.entries ++ [f]
  owners := Function.update s.owners f.sequence (some (.token f.rollbackToken f.redisId))
  lastId := f.redisId
  generation := f.generation
  sorted := by
    rw [List.map_append, List.pairwise_append]
    refine ⟨s.sorted, by simp, ?_⟩
    intro n hn m hm
    obtain ⟨e, he, rfl⟩ := List.mem_map.mp hn
    obtain rfl : m = f.sequence := by simpa using hm
    obtain ⟨o, ho, -⟩ := s.owned e he
    have hle := (s.sequence_le e he).2.2
    have hne : e.sequence ≠ f.sequence := fun heq => by rw [heq, hfree] at ho; cases ho
    omega
  sequence_le e he := by
    rcases List.mem_append.mp he with he | he
    · have := s.sequence_le e he
      exact ⟨this.1, this.2.1, Nat.le_trans this.2.2 hid⟩
    · obtain rfl : e = f := by simpa using he
      exact ⟨hpos, hmax, Nat.le_refl _⟩
  generation_le e he := by
    rcases List.mem_append.mp he with he | he
    · have := s.generation_le e he
      omega
    · obtain rfl : e = f := by simpa using he
      omega
  owned e he := by
    rcases List.mem_append.mp he with he | he
    · obtain ⟨o, ho, hid⟩ := s.owned e he
      have hne : e.sequence ≠ f.sequence := fun heq => by rw [heq, hfree] at ho; cases ho
      exact ⟨o, by rw [Function.update_of_ne hne]; exact ho, hid⟩
    · obtain rfl : e = f := by simpa using he
      exact ⟨_, Function.update_self _ _ _, rfl⟩

variable (frame : StreamRecoveryFrame)

/-- `AppendFrameForRollback` with its script. -/
def appendFrame (full : Bool) (s : AttemptStore maxEvents) :
    Except AppendError StreamRecoveryFrame × AttemptStore maxEvents :=
  if hpos : frame.sequence = 0 then (.error .notPositive, s)
  else if hmax : maxEvents < frame.sequence then (.error .eventLimit, s)
  else if hfree : (s.owners frame.sequence).isSome then (.error .frameChanged, s)
  else if full then (.error .byteLimit, s)
  else
    let f := { frame with generation := s.generation + 1 }
    if hid : s.lastId.1 < f.sequence ∨ (s.lastId.1 = f.sequence ∧ s.lastId.2 < f.generation) then
      (.ok f, s.add f (Nat.pos_of_ne_zero hpos) (Nat.le_of_not_lt hmax)
        (Option.not_isSome_iff_eq_none.mp hfree) rfl
        (by rcases hid with h | h; exacts [Nat.le_of_lt h, Nat.le_of_eq h.1]))
    else (.error .idTooSmall, s.bump)

/-- `XDEL` of an entry, and of the owner of its sequence. -/
def remove (f : StreamRecoveryFrame) (h : ∃ e ∈ s.entries, e.redisId = f.redisId) :
    AttemptStore maxEvents where
  entries := s.entries.filter fun e => e.redisId ≠ f.redisId
  owners := Function.update s.owners f.sequence none
  lastId := s.lastId
  generation := s.generation
  sorted := s.sorted.sublist (List.filter_sublist.map _)
  sequence_le e he := s.sequence_le e (List.mem_of_mem_filter he)
  generation_le e he := s.generation_le e (List.mem_of_mem_filter he)
  owned e he := by
    obtain ⟨e', he', hid⟩ := h
    have hmem := List.mem_of_mem_filter he
    obtain ⟨o, ho, ho'⟩ := s.owned e hmem
    have hne : e.sequence ≠ f.sequence := fun heq => by
      have hsame := eq_of_sequence_eq hmem he' (heq.trans (congrArg Prod.fst hid).symm)
      have hkept := List.of_mem_filter he
      rw [hsame] at hkept
      simp [hid] at hkept
    exact ⟨o, by rw [Function.update_of_ne hne]; exact ho, ho'⟩

/-- The rollback script. Without an owner only an entry of the old format could
be removed. -/
def rollbackFrame (s : AttemptStore maxEvents) : ScriptResult × AttemptStore maxEvents :=
  let owner := s.owners frame.sequence
  if owner = none ∧ (frame.rollbackToken ≠ "" ∨ frame.generation ≠ 0) then (.notFound, s)
  else if owner ≠ none ∧ owner ≠ some (.token frame.rollbackToken frame.redisId) then (.changed, s)
  else if h : ∃ e ∈ s.entries, e.redisId = frame.redisId then
    if owner ≠ none ∧ ∃ e ∈ s.entries, e.redisId = frame.redisId ∧
        e.rollbackToken ≠ frame.rollbackToken then (.changed, s)
    else (.done, s.remove frame h)
  else (.notFound, s)

def setSealed (f : StreamRecoveryFrame) (h : ∃ e ∈ s.entries, e.redisId = f.redisId) :
    AttemptStore maxEvents where
  entries := s.entries
  owners := Function.update s.owners f.sequence (some (.sealed f.redisId))
  lastId := s.lastId
  generation := s.generation
  sorted := s.sorted
  sequence_le := s.sequence_le
  generation_le := s.generation_le
  owned e he := by
    by_cases heq : e.sequence = f.sequence
    · obtain ⟨e', he', hid⟩ := h
      have hsame := eq_of_sequence_eq he he' (heq.trans (congrArg Prod.fst hid).symm)
      exact ⟨_, by rw [heq, Function.update_self], by rw [hsame, hid]; rfl⟩
    · obtain ⟨o, ho, hid⟩ := s.owned e he
      exact ⟨o, by rw [Function.update_of_ne heq]; exact ho, hid⟩

def sealFrame (s : AttemptStore maxEvents) : ScriptResult × AttemptStore maxEvents :=
  let owner := s.owners frame.sequence
  if owner = none ∧ frame.rollbackToken ≠ "" then (.changed, s)
  else if owner ≠ none ∧ owner ≠ some (.sealed frame.redisId) ∧
      owner ≠ some (.token frame.rollbackToken frame.redisId) then (.changed, s)
  else if h : ∃ e ∈ s.entries, e.redisId = frame.redisId then
    if ∃ e ∈ s.entries, e.redisId = frame.redisId ∧ e.rollbackToken ≠ frame.rollbackToken then
      (.changed, s)
    else (.done, s.setSealed frame h)
  else (.notFound, s)

/-- `ReadFrames`, with a limit of at least 1. -/
def readFrames (after limit : Nat) : List StreamRecoveryFrame :=
  (s.entries.filter fun e => after < e.sequence).take limit

variable {s}

theorem mem_of_mem_readFrames {after limit : Nat} {f : StreamRecoveryFrame}
    (h : f ∈ s.readFrames after limit) : f ∈ s.entries ∧ after < f.sequence := by
  have := List.mem_filter.mp (List.mem_of_mem_take h)
  exact ⟨this.1, by simpa using this.2⟩

/-! ## What the scripts keep -/

/-- Whatever is stored under the id of the frame is the frame. -/
structure Known (s : AttemptStore maxEvents) (g : StreamRecoveryFrame) : Prop where
  generation_le : g.generation ≤ s.generation
  eq_of_mem : ∀ e ∈ s.entries, e.redisId = g.redisId → e = g

/-- The frame of a sequence is stored and sealed. -/
structure Sealed (s : AttemptStore maxEvents) (e : StreamRecoveryFrame) : Prop where
  mem : e ∈ s.entries
  owner : s.owners e.sequence = some (.sealed e.redisId)

theorem Sealed.find (h : s.Sealed e) : s.find e.sequence = some e := find_eq_some.mpr ⟨h.mem, rfl⟩

theorem known_of_mem (h : e ∈ s.entries) : s.Known e where
  generation_le := (s.generation_le e h).2
  eq_of_mem _ hf hid := eq_of_sequence_eq hf h (congrArg Prod.fst hid)

/-- What one script leaves of a store: the entries that it does not remove, the
knowledge about ids, and what is sealed. -/
structure Keeps (s t : AttemptStore maxEvents) (removed : StreamRecoveryFrame → Prop) : Prop where
  mem : ∀ e ∈ s.entries, e ∈ t.entries ∨ removed e
  known : ∀ g, s.Known g → t.Known g
  sealed : ∀ e, s.Sealed e → t.Sealed e

variable (s)

theorem Keeps.refl (removed : StreamRecoveryFrame → Prop) : s.Keeps s removed :=
  ⟨fun _ he => .inl he, fun _ h => h, fun _ h => h⟩

theorem bump_keeps : s.Keeps s.bump fun _ => False where
  mem _ he := .inl he
  known _ h := ⟨Nat.le_succ_of_le h.generation_le, h.eq_of_mem⟩
  sealed _ h := ⟨h.mem, h.owner⟩

theorem appendFrame_spec (full : Bool) (s : AttemptStore maxEvents) :
    s.Keeps (s.appendFrame frame full).2 (fun _ => False) ∧
      ((s.appendFrame frame full).2.entries = s.entries ∧
          (∃ err, (s.appendFrame frame full).1 = .error err) ∨
        ∃ f, (s.appendFrame frame full).1 = .ok f ∧ f.sequence = frame.sequence ∧
          f.terminal = frame.terminal ∧ f.data = frame.data ∧
          (s.appendFrame frame full).2.entries = s.entries ++ [f]) := by
  rw [appendFrame]
  split
  · exact ⟨.refl s _, .inl ⟨rfl, _, rfl⟩⟩
  split
  · exact ⟨.refl s _, .inl ⟨rfl, _, rfl⟩⟩
  split
  · exact ⟨.refl s _, .inl ⟨rfl, _, rfl⟩⟩
  next hfree =>
  split
  · exact ⟨.refl s _, .inl ⟨rfl, _, rfl⟩⟩
  dsimp only
  split
  · refine ⟨⟨fun e he => .inl (List.mem_append_left _ he), ?_, ?_⟩,
      .inr ⟨_, rfl, rfl, rfl, rfl, rfl⟩⟩
    · intro g hg
      refine ⟨Nat.le_succ_of_le hg.generation_le, ?_⟩
      intro e he hid
      rcases List.mem_append.mp he with he | he
      · exact hg.eq_of_mem e he hid
      -- the new generation is above every known one
      obtain rfl := List.mem_singleton.mp he
      have := hg.generation_le
      have : s.generation + 1 = g.generation := congrArg Prod.snd hid
      omega
    · intro e he
      have hne : e.sequence ≠ frame.sequence := fun heq => by
        have := he.owner
        rw [heq, Option.not_isSome_iff_eq_none.mp hfree] at this
        cases this
      refine ⟨List.mem_append_left _ he.mem, ?_⟩
      show Function.update s.owners _ _ e.sequence = _
      rw [Function.update_of_ne hne]
      exact he.owner
  · exact ⟨bump_keeps s, .inl ⟨rfl, _, rfl⟩⟩

/-- A rollback removes at most the entry with the id of the frame, and never a
sealed one. -/
theorem rollbackFrame_spec (s : AttemptStore maxEvents) :
    s.Keeps (s.rollbackFrame frame).2 (fun e => e.redisId = frame.redisId) ∧
      ∀ e ∈ (s.rollbackFrame frame).2.entries, e ∈ s.entries := by
  rw [rollbackFrame]
  split
  · exact ⟨.refl s _, fun _ h => h⟩
  next hlegacy =>
  split
  · exact ⟨.refl s _, fun _ h => h⟩
  next howner =>
  split
  swap
  · exact ⟨.refl s _, fun _ h => h⟩
  next hmem =>
  split
  · exact ⟨.refl s _, fun _ h => h⟩
  refine ⟨⟨?_, ?_, ?_⟩, fun e he => List.mem_of_mem_filter he⟩
  · intro e he
    by_cases hid : e.redisId = frame.redisId
    · exact .inr hid
    · exact .inl (List.mem_filter.mpr ⟨he, by simpa using hid⟩)
  · intro g hg
    exact ⟨hg.generation_le, fun e he => hg.eq_of_mem e (List.mem_of_mem_filter he)⟩
  · intro e he
    have hne : e.sequence ≠ frame.sequence := fun heq => by
      have hsealed := he.owner
      rw [heq] at hsealed
      rw [hsealed] at howner
      simp at howner
    refine ⟨List.mem_filter.mpr ⟨he.mem, ?_⟩, ?_⟩
    · have : e.redisId ≠ frame.redisId := fun hid => hne (congrArg Prod.fst hid)
      simpa using this
    · show Function.update s.owners _ _ e.sequence = _
      rw [Function.update_of_ne hne]
      exact he.owner

theorem sealFrame_spec (s : AttemptStore maxEvents) :
    s.Keeps (s.sealFrame frame).2 (fun _ => False) ∧
      ((s.sealFrame frame).1 = .done → s.Known frame → (s.sealFrame frame).2.Sealed frame) := by
  rw [sealFrame]
  split
  · exact ⟨.refl s _, nofun⟩
  split
  · exact ⟨.refl s _, nofun⟩
  next howner =>
  split
  swap
  · exact ⟨.refl s _, nofun⟩
  next hmem =>
  split
  · exact ⟨.refl s _, nofun⟩
  refine ⟨⟨fun _ he => .inl he, fun _ h => ⟨h.generation_le, h.eq_of_mem⟩, ?_⟩, ?_⟩
  · intro e he
    refine ⟨he.mem, ?_⟩
    show Function.update s.owners _ _ e.sequence = _
    by_cases heq : e.sequence = frame.sequence
    · have hsealed := he.owner
      rw [heq] at hsealed
      rw [hsealed] at howner
      have hid : e.redisId = frame.redisId := by simpa using howner
      rw [heq, Function.update_self, hid]
    · rw [Function.update_of_ne heq]
      exact he.owner
  · intro _ hknown
    obtain ⟨e, he, hid⟩ := hmem
    obtain rfl := hknown.eq_of_mem e he hid
    exact ⟨he, Function.update_self _ _ _⟩

theorem Keeps.update {store : Nat → AttemptStore maxEvents} {a : Nat} {t : AttemptStore maxEvents}
    {removed : StreamRecoveryFrame → Prop} (h : (store a).Keeps t removed) (b : Nat) :
    (store b).Keeps (Function.update store a t b) (fun e => b = a ∧ removed e) := by
  by_cases hb : b = a
  · subst hb
    rw [Function.update_self]
    exact ⟨fun e he => (h.mem e he).imp id fun hr => ⟨rfl, hr⟩, h.known, h.sealed⟩
  · rw [Function.update_of_ne hb]
    exact .refl _ _

end AttemptStore

end NewApi
