import OpenThesis.Json.Stream
import OpenThesis.Posix.Core
import OpenThesis.Run.Core

/-!
# Atomic writes of the store

`atomicWriteJSON` renames a temporary file, which all writers of a path share; their system calls
interleave.
-/

namespace OpenThesis.Api

open Posix Json.Text Text List Function

/-- How a reader decodes: as soon as what it has read settles the result, or else at the end. -/
structure Decoder (δ : Type*) where
  settled : List UInt8 → Option (Option δ)
  decode : List UInt8 → Option δ
  decode_of_settled : ∀ {text result}, settled text = some result →
    ∀ rest, decode (text ++ rest) = result

structure Document {δ : Type*} (decoder : Decoder δ) where
  value : δ
  text : List UInt8
  decodes : decoder.decode text = some value

def jsonDecoder (maxDepth : Nat) : Decoder Value where
  settled := settledFrom maxDepth .start
  decode text := (firstValue maxDepth text).map Prod.fst
  decode_of_settled := firstValueFrom_of_settledFrom

def tmp (path : String) : String :=
  path ++ ".tmp"

theorem tmp_ne (path : String) : path ≠ tmp path := by
  intro same
  have length := congrArg String.length same
  rw [tmp, String.length_append] at length
  exact absurd length (Nat.lt_add_of_pos_right (by decide)).ne

/-- How far a write is. -/
inductive Writer
  | idle
  /-- The file is open; these bytes are not written yet. -/
  | writing (inode offset : Nat) (rest : List UInt8)
  /-- An error of the encoder or of closing; the temporary file is still to be removed. -/
  | failing
  | closed
  | returned (success : Bool)
  deriving DecidableEq

/-- A system call of a writer. A write takes at least one byte. -/
inductive WriterEvent
  | create
  | write (more : Nat)
  | close
  | remove (removed : Bool)
  | rename
  | fail
  deriving DecidableEq

def atomicWriteJSON (path : String) (text : List UInt8) (fs : FileSystem String) :
    Writer → WriterEvent → FileSystem String × Writer
  | .idle, .fail => (fs, .returned false)
  | .idle, .create => ((fs.create (tmp path)).1, .writing (fs.create (tmp path)).2 0 text)
  | .writing inode offset (b :: rest), .write more =>
    let written := (b :: rest).take (more + 1)
    (fs.writeAt inode offset written,
      .writing inode (offset + written.length) ((b :: rest).drop (more + 1)))
  | .writing _ _ _, .fail => (fs, .failing)
  | .writing _ _ [], .close => (fs, .closed)
  | .failing, .remove removed =>
    (if removed then fs.remove (tmp path) else fs, .returned false)
  | .closed, .fail => (fs, .returned false)
  | .closed, .rename =>
    match fs.rename (tmp path) path with
    | some renamed => (renamed, .returned true)
    | none => (fs, .returned false)
  | writer, _ => (fs, writer)

inductive ReadError
  | notFound
  | malformed
  deriving DecidableEq

/-- How far a read is. -/
inductive Reader (δ : Type*)
  | idle
  | reading (inode : Nat) (got : List UInt8)
  | returned (result : Except ReadError δ)

inductive ReaderEvent
  | start
  | read (more : Nat)
  deriving DecidableEq

def decoded {δ : Type*} : Option δ → Except ReadError δ
  | some value => .ok value
  | none => .error .malformed

def readJSON {δ : Type*} (decoder : Decoder δ) (path : String) (fs : FileSystem String) :
    Reader δ → ReaderEvent → Reader δ
  | .idle, .start =>
    match fs.entries path with
    | none => .returned (.error .notFound)
    | some inode => .reading inode []
  | .reading inode got, .read more =>
    match ((fs.content inode).drop got.length).take (more + 1) with
    | [] => .returned (decoded (decoder.decode got))
    | b :: chunk =>
      match decoder.settled (got ++ b :: chunk) with
      | some result => .returned (decoded result)
      | none => .reading inode (got ++ b :: chunk)
  | reader, _ => reader

/-- All calls in progress. -/
structure Calls (ι ρ : Type) (δ : Type*) where
  fs : FileSystem String
  writers : ι → Writer
  readers : ρ → Reader δ

inductive CallEvent (ι ρ : Type)
  | writer (w : ι) (event : WriterEvent)
  | reader (r : ρ) (event : ReaderEvent)
  deriving DecidableEq

namespace Calls

variable {ι ρ : Type} [DecidableEq ι] [DecidableEq ρ] {δ : Type*} {decoder : Decoder δ}

def start (fs : FileSystem String) : Calls ι ρ δ :=
  ⟨fs, fun _ => .idle, fun _ => .idle⟩

/-- One system call of a writer or of a reader. -/
def step (path : String) (doc : ι → Document decoder) (s : Calls ι ρ δ) :
    CallEvent ι ρ → Calls ι ρ δ
  | .writer w event =>
    let (fs, writer) := atomicWriteJSON path (doc w).text s.fs (s.writers w) event
    { s with fs, writers := update s.writers w writer }
  | .reader r event =>
    { s with
      readers := update s.readers r
        (readJSON decoder path s.fs (s.readers r) event) }

def run (path : String) (doc : ι → Document decoder) (fs : FileSystem String)
    (events : List (CallEvent ι ρ)) : Calls ι ρ δ :=
  events.foldl (step path doc) (start fs)

end Calls

def Writer.Busy : Writer → Prop
  | .writing _ _ _ | .failing | .closed => True
  | .idle | .returned _ => False

instance : DecidablePred Writer.Busy
  | .writing _ _ _ | .failing | .closed => isTrue trivial
  | .idle | .returned _ => isFalse id

def Settled (path : String) (fs : FileSystem String) (inode : Nat) (text : List UInt8) : Prop :=
  inode < fs.fresh ∧ fs.entries (tmp path) ≠ some inode ∧ fs.content inode = text

/-- What a writer finds in the temporary file if nobody else has written there. -/
def Writer.Holds (path : String) (fs : FileSystem String) (text : List UInt8) : Writer → Prop
  | .writing inode offset rest =>
    fs.entries (tmp path) = some inode ∧ fs.content inode ++ rest = text ∧
      offset = (fs.content inode).length
  | .closed => fs.text (tmp path) = some text
  | .idle | .failing | .returned _ => True

def Apart (path : String) (fs : FileSystem String) : Prop :=
  ∀ inode, fs.entries path = some inode → fs.entries (tmp path) ≠ some inode

section

variable {path : String} {text bytes : List UInt8} {fs fs' : FileSystem String}
  {writer writer' : Writer} {event : WriterEvent} {inode : Nat}

theorem Apart.settled (apart : Apart path fs) (found : fs.entries path = some inode) :
    Settled path fs inode (fs.content inode) :=
  ⟨fs.entries_lt found, apart inode found, rfl⟩

/-- What a system call of a writer does that has the temporary file for itself. -/
structure Advance (path : String) (text : List UInt8) (fs fs' : FileSystem String)
    (writer writer' : Writer) : Prop where
  holds : writer'.Holds path fs' text
  keeps : ∀ {inode bytes}, Settled path fs inode bytes → Settled path fs' inode bytes
  /-- The path is left alone, or gets the complete document. -/
  effect : (fs'.entries path = fs.entries path ∧
      (writer' = .returned true → writer = .returned true)) ∨
    ∃ inode, fs'.entries path = some inode ∧ Settled path fs' inode text

theorem Advance.stay (holds : writer'.Holds path fs text)
    (silent : writer' = .returned true → writer = .returned true) :
    Advance path text fs fs writer writer' :=
  ⟨holds, id, Or.inl ⟨rfl, silent⟩⟩

theorem advance_create :
    Advance path text fs (fs.create (tmp path)).1 .idle
      (.writing (fs.create (tmp path)).2 0 text) where
  holds := by
    rw [Writer.Holds, FileSystem.content_create]
    exact ⟨FileSystem.entries_create, rfl, rfl⟩
  keeps := by
    rintro inode bytes ⟨below, unnamed, same⟩
    have ne := FileSystem.create_ne below unnamed
    refine ⟨below.trans_le FileSystem.fresh_le_create, ?_, ?_⟩
    · rw [FileSystem.entries_create]
      exact fun opened => ne (Option.some.inj opened).symm
    · rw [FileSystem.content_create_of_ne ne, same]
  effect := Or.inl ⟨FileSystem.entries_create_of_ne (tmp_ne path), nofun⟩

theorem advance_write {offset : Nat} {rest : List UInt8} (more : Nat)
    (holds : (Writer.writing inode offset rest).Holds path fs text) :
    Advance path text fs (fs.writeAt inode offset (rest.take (more + 1)))
      (.writing inode offset rest)
      (.writing inode (offset + (rest.take (more + 1)).length) (rest.drop (more + 1))) where
  holds := by
    obtain ⟨named, whole, rfl⟩ := holds
    have written : (fs.writeAt inode (fs.content inode).length (rest.take (more + 1))).content
        inode = fs.content inode ++ rest.take (more + 1) :=
      (update_self ..).trans (overwrite_length _ _)
    refine ⟨named, ?_, ?_⟩
    · rw [written, append_assoc, take_append_drop, whole]
    · rw [written, length_append]
  keeps := by
    rintro other bytes ⟨below, unnamed, same⟩
    have ne : other ≠ inode := by
      rintro rfl
      exact unnamed holds.1
    exact ⟨below, unnamed, (update_of_ne ne ..).trans same⟩
  effect := Or.inl ⟨rfl, nofun⟩

theorem advance_remove :
    Advance path text fs (fs.remove (tmp path)) .failing (.returned false) where
  holds := trivial
  keeps := by
    rintro inode bytes ⟨below, -, same⟩
    refine ⟨below, ?_, same⟩
    rw [show (fs.remove (tmp path)).entries (tmp path) = none from update_self ..]
    simp
  effect := Or.inl ⟨update_of_ne (tmp_ne path) .., by simp⟩

theorem advance_rename (apart : Apart path fs) (holds : Writer.closed.Holds path fs text) :
    ∃ renamed, fs.rename (tmp path) path = some renamed ∧
      Advance path text fs renamed .closed (.returned true) := by
  obtain ⟨inode, named, whole⟩ := Option.map_eq_some_iff.mp holds
  have unnamed : fs.entries path ≠ some inode := fun found => apart inode found named
  obtain ⟨renamed, result, found, removed, content, fresh⟩ :=
    FileSystem.rename_of_entries named unnamed (tmp_ne path)
  have settled {other : Nat} {bytes : List UInt8} (below : other < fs.fresh)
      (same : fs.content other = bytes) : Settled path renamed other bytes := by
    refine ⟨fresh ▸ below, ?_, ?_⟩
    · rw [removed]
      simp
    · rw [content, same]
  exact ⟨renamed, result, trivial, fun kept => settled kept.1 kept.2.2,
    Or.inr ⟨inode, found, settled (fs.entries_lt named) whole⟩⟩

theorem advance_of_eq (stepped : atomicWriteJSON path text fs writer event = (fs', writer'))
    (apart : Apart path fs) (holds : writer.Holds path fs text) :
    Advance path text fs fs' writer writer' := by
  revert stepped holds
  fun_cases atomicWriteJSON path text fs writer event <;> intro stepped holds <;>
    obtain ⟨rfl, rfl⟩ := Prod.mk.inj stepped
  case case1 => exact .stay trivial nofun
  case case2 => exact advance_create
  case case3 => exact advance_write _ holds
  case case4 => exact .stay trivial nofun
  case case5 inode _ =>
      obtain ⟨named, whole, -⟩ := holds
      rw [append_nil] at whole
      refine .stay ?_ nofun
      rw [Writer.Holds, FileSystem.text, named, Option.map_some, whole]
  case case6 removed =>
      cases removed with
      | true => exact advance_remove
      | false => exact .stay trivial nofun
  case case7 => exact .stay trivial nofun
  case case8 renamed result =>
      obtain ⟨renamed', result', advance⟩ := advance_rename apart holds
      cases result.symm.trans result'
      exact advance
  case case9 result => exact .stay trivial nofun
  case case10 => exact .stay holds id

theorem Advance.apart (advance : Advance path text fs fs' writer writer')
    (apart : Apart path fs) : Apart path fs' := by
  intro inode found
  rcases advance.effect with ⟨kept, -⟩ | ⟨inode', found', settled⟩
  · rw [kept] at found
    exact (advance.keeps (apart.settled found)).2.1
  · cases found.symm.trans found'
    exact settled.2.1

theorem eq_of_not_busy (stepped : atomicWriteJSON path text fs writer event = (fs', writer'))
    (idle : ¬writer.Busy) (waits : event ≠ .create) : fs' = fs ∧ ¬writer'.Busy := by
  cases writer with
  | idle => cases event <;> cases stepped <;> first | exact (waits rfl).elim | exact ⟨rfl, id⟩
  | returned success => cases event <;> cases stepped <;> exact ⟨rfl, id⟩
  | writing inode offset rest | failing | closed => exact (idle trivial).elim

end

section

variable {path : String} {fs fs' : FileSystem String} {δ : Type*} {decoder : Decoder δ}
  {doc : Document decoder} {reader : Reader δ} {reads : Nat}

def Reader.Follows (path : String) (fs : FileSystem String) (doc : Document decoder) (reads : Nat)
    (reader : Reader δ) : Prop :=
  reader = .returned (.ok doc.value) ∨
    ∃ inode got, reader = .reading inode got ∧ Settled path fs inode doc.text ∧
      got <+: doc.text ∧ reads ≤ got.length

theorem follows_start {inode : Nat} (found : fs.entries path = some inode)
    (settled : Settled path fs inode doc.text) :
    (readJSON decoder path fs .idle .start).Follows path fs doc 0 := by
  refine Or.inr ⟨inode, [], ?_, settled, nil_prefix, Nat.le_refl _⟩
  simp only [readJSON, found]

theorem follows_read (follows : reader.Follows path fs doc reads) (more : Nat) :
    (readJSON decoder path fs reader (.read more)).Follows path fs doc (reads + 1) := by
  rcases follows with rfl | ⟨inode, got, rfl, settled, ⟨rest, whole⟩, enough⟩
  · exact Or.inl rfl
  · have left : (fs.content inode).drop got.length = rest := by
      rw [settled.2.2, ← whole, drop_left]
    simp only [readJSON, left]
    cases rest with
    | nil =>
      rw [append_nil] at whole
      refine Or.inl ?_
      rw [take_nil, whole, doc.decodes]
      rfl
    | cons b rest =>
      rw [take_succ_cons]
      have longer : got ++ b :: rest.take more ++ rest.drop more = doc.text := by
        rw [append_assoc, cons_append, take_append_drop, whole]
      dsimp only
      cases verdict : decoder.settled (got ++ b :: rest.take more) with
      | some result =>
        have value := decoder.decode_of_settled verdict (rest.drop more)
        rw [longer, doc.decodes] at value
        subst value
        exact Or.inl rfl
      | none =>
        refine Or.inr ⟨inode, _, rfl, settled, ⟨_, longer⟩, ?_⟩
        rw [length_append, length_cons]
        exact Nat.add_le_add enough (Nat.le_add_left _ _)

theorem Reader.Follows.mono
    (keeps : ∀ {inode bytes}, Settled path fs inode bytes → Settled path fs' inode bytes)
    (follows : reader.Follows path fs doc reads) : reader.Follows path fs' doc reads := by
  rcases follows with returned | ⟨inode, got, reading, settled, rest⟩
  · exact Or.inl returned
  · exact Or.inr ⟨inode, got, reading, keeps settled, rest⟩

theorem follows_restart (follows : reader.Follows path fs doc reads) :
    (readJSON decoder path fs reader .start).Follows path fs doc reads := by
  rcases follows with rfl | ⟨inode, got, rfl, rest⟩
  · exact Or.inl rfl
  · exact Or.inr ⟨inode, got, rfl, rest⟩

end

theorem holds_of_not_busy {path : String} {fs : FileSystem String} {text : List UInt8}
    {writer : Writer} (idle : ¬writer.Busy) : writer.Holds path fs text := by
  cases writer with
  | idle | failing | returned success => trivial
  | writing inode offset rest | closed => exact (idle trivial).elim

def CallEvent.isRead {ι ρ : Type} [DecidableEq ρ] (r : ρ) : CallEvent ι ρ → Bool
  | .reader other (.read _) => other = r
  | _ => false

namespace Calls

variable {ι ρ : Type} [DecidableEq ι] [DecidableEq ρ] {δ : Type*} {decoder : Decoder δ}

def Succeeded (s : Calls ι ρ δ) : Prop :=
  ∃ w, s.writers w = .returned true

def Alone (s : Calls ι ρ δ) (event : CallEvent ι ρ) : Prop :=
  ∀ w, event = .writer w .create → ∀ other, other ≠ w → ¬(s.writers other).Busy

instance [Fintype ι] (s : Calls ι ρ δ) (event : CallEvent ι ρ) : Decidable (s.Alone event) := by
  unfold Alone
  infer_instance

def Published (path : String) (doc : ι → Document decoder) (fs : FileSystem String) : Prop :=
  ∃ w inode, fs.entries path = some inode ∧ Settled path fs inode (doc w).text

structure Sound (path : String) (doc : ι → Document decoder) (s : Calls ι ρ δ) : Prop where
  apart : Apart path s.fs
  single : ∀ w w', (s.writers w).Busy → (s.writers w').Busy → w = w'
  holds : ∀ w, (s.writers w).Holds path s.fs (doc w).text
  published : s.Succeeded → Published path doc s.fs

variable {path : String} {doc : ι → Document decoder} {s : Calls ι ρ δ}

theorem step_writer (w : ι) (event : WriterEvent) :
    atomicWriteJSON path (doc w).text s.fs (s.writers w) event =
      ((s.step path doc (.writer w event)).fs, (s.step path doc (.writer w event)).writers w) := by
  simp only [step, update_self]

theorem advance_step (sound : s.Sound path doc) (w : ι) (event : WriterEvent) :
    Advance path (doc w).text s.fs (s.step path doc (.writer w event)).fs (s.writers w)
      ((s.step path doc (.writer w event)).writers w) :=
  advance_of_eq (step_writer w event) sound.apart (sound.holds w)

theorem others_step (sound : s.Sound path doc) {w other : ι} {event : WriterEvent}
    (alone : s.Alone (.writer w event)) (ne : other ≠ w) :
    ¬(s.writers other).Busy ∨ ((s.step path doc (.writer w event)).fs = s.fs ∧
      ¬((s.step path doc (.writer w event)).writers w).Busy) := by
  by_cases busy : (s.writers w).Busy
  · exact Or.inl fun both => ne (sound.single other w both busy)
  · by_cases begins : event = .create
    · exact Or.inl (alone w (congrArg _ begins) other ne)
    · exact Or.inr (eq_of_not_busy (step_writer w event) busy begins)

theorem writers_step_of_ne {w other : ι} (event : WriterEvent) (ne : other ≠ w) :
    (s.step path doc (.writer w event)).writers other = s.writers other :=
  update_of_ne ne ..

theorem sound_writer (sound : s.Sound path doc) {w : ι} {event : WriterEvent}
    (alone : s.Alone (.writer w event)) : (s.step path doc (.writer w event)).Sound path doc where
  apart := (advance_step sound w event).apart sound.apart
  single := by
    -- no two of the writers are busy if one of them is the one that takes the step
    have apartFrom (other : ι) (ne : other ≠ w)
        (busy : ((s.step path doc (.writer w event)).writers w).Busy) :
        ¬(s.writers other).Busy :=
      (others_step sound alone ne).elim id fun quiet => (quiet.2 busy).elim
    intro first second busy busy'
    by_cases isFirst : first = w
    · subst isFirst
      by_contra ne
      rw [writers_step_of_ne event (Ne.symm ne)] at busy'
      exact apartFrom second (Ne.symm ne) busy busy'
    · rw [writers_step_of_ne event isFirst] at busy
      by_cases isSecond : second = w
      · subst isSecond
        exact (apartFrom first isFirst busy' busy).elim
      · rw [writers_step_of_ne event isSecond] at busy'
        exact sound.single first second busy busy'
  holds := by
    intro other
    by_cases same : other = w
    · subst same
      exact (advance_step sound other event).holds
    · rw [writers_step_of_ne event same]
      rcases others_step sound alone same with idle | ⟨kept, -⟩
      · exact holds_of_not_busy idle
      · rw [kept]
        exact sound.holds other
  published := by
    rintro ⟨other, returned⟩
    rcases (advance_step sound w event).effect with ⟨kept, silent⟩ | ⟨inode, found, settled⟩
    · have earlier : s.Succeeded := by
        by_cases same : other = w
        · subst same
          exact ⟨other, silent returned⟩
        · rw [writers_step_of_ne event same] at returned
          exact ⟨other, returned⟩
      obtain ⟨author, inode, found, settled⟩ := sound.published earlier
      exact ⟨author, inode, kept.trans found, (advance_step sound w event).keeps settled⟩
    · exact ⟨w, inode, found, settled⟩

theorem sound_step (sound : s.Sound path doc) {event : CallEvent ι ρ} (alone : s.Alone event) :
    (s.step path doc event).Sound path doc := by
  cases event with
  | writer w event => exact sound_writer sound alone
  | reader r event => exact ⟨sound.apart, sound.single, sound.holds, sound.published⟩

theorem follows_step (sound : s.Sound path doc) {event : CallEvent ι ρ} {r : ρ}
    {document : Document decoder} {reads : Nat}
    (follows : (s.readers r).Follows path s.fs document reads) :
    ((s.step path doc event).readers r).Follows path (s.step path doc event).fs document
      (reads + [event].countP (CallEvent.isRead r)) := by
  cases event with
  | writer w event => exact follows.mono (advance_step sound w event).keeps
  | reader other event =>
    by_cases same : other = r
    · subst same
      have stepped : (s.step path doc (.reader other event)).readers other =
          readJSON decoder path s.fs (s.readers other) event := update_self ..
      rw [stepped]
      cases event with
      | start => exact follows_restart follows
      | read more =>
        have counted : [CallEvent.reader (ι := ι) other (.read more)].countP
            (CallEvent.isRead other) = 1 := by
          simp [CallEvent.isRead]
        rw [counted]
        exact follows_read follows more
    · have untouched : (s.step path doc (.reader other event)).readers r = s.readers r :=
        update_of_ne (Ne.symm same) ..
      have counted : [CallEvent.reader (ι := ι) other event].countP (CallEvent.isRead r) = 0 := by
        cases event <;> simp [CallEvent.isRead, same]
      rw [untouched, counted]
      exact follows

theorem run_concat (fs : FileSystem String) (events : List (CallEvent ι ρ))
    (event : CallEvent ι ρ) :
    run path doc fs (events ++ [event]) = (run path doc fs events).step path doc event :=
  foldl_concat ..

def InTurn (path : String) (doc : ι → Document decoder) (fs : FileSystem String)
    (events : List (CallEvent ι ρ)) : Prop :=
  ∀ before event, before ++ [event] <+: events → (run path doc fs before).Alone event

variable {fs : FileSystem String}

theorem InTurn.of_prefix {earlier events : List (CallEvent ι ρ)}
    (inTurn : InTurn path doc fs events) (isPre : earlier <+: events) :
    InTurn path doc fs earlier :=
  fun before event inside => inTurn before event (inside.trans isPre)

theorem sound_run {events : List (CallEvent ι ρ)} (apart : Apart path fs)
    (inTurn : InTurn path doc fs events) : (run path doc fs events).Sound path doc :=
  Run.foldl_of_conditions (motive := Sound path doc)
    ⟨apart, nofun, fun _ => trivial, fun ⟨_, returned⟩ => nomatch returned⟩
    (fun _ _ sound meets => sound_step sound meets) inTurn

theorem follows_run {before after : List (CallEvent ι ρ)} {r : ρ} {w : ι} {inode : Nat}
    (apart : Apart path fs) (inTurn : InTurn path doc fs (before ++ .reader r .start :: after))
    (idle : (run path doc fs before).readers r = .idle)
    (found : (run path doc fs before).fs.entries path = some inode)
    (settled : Settled path (run path doc fs before).fs inode (doc w).text) :
    ((run path doc fs (before ++ .reader r .start :: after)).readers r).Follows path
      (run path doc fs (before ++ .reader r .start :: after)).fs (doc w)
      (after.countP (CallEvent.isRead r)) := by
  induction after using reverseRecOn with
  | nil =>
    have opened : (run path doc fs (before ++ [.reader r .start])).readers r =
        readJSON decoder path (run path doc fs before).fs .idle .start := by
      rw [run_concat, ← idle]
      exact update_self ..
    rw [opened, run_concat]
    exact follows_start found settled
  | append_singleton after event ih =>
    have whole : before ++ .reader r .start :: (after ++ [event]) =
        (before ++ .reader r .start :: after) ++ [event] := by
      rw [append_assoc, cons_append]
    rw [whole] at inTurn ⊢
    have earlier := inTurn.of_prefix (prefix_append _ _)
    rw [run_concat, countP_append]
    exact follows_step (sound_run apart earlier) (ih earlier)

/-- A reader that opens the path after the first write decodes the complete document that is there
then, unless it is still reading; and a writer that returns without an error leaves its document. -/
structure Atomic (path : String) (doc : ι → Document decoder) (fs : FileSystem String)
    (events : List (CallEvent ι ρ)) : Prop where
  reads : ∀ before after r, before ++ .reader r .start :: after = events →
    (run path doc fs before).Succeeded → (run path doc fs before).readers r = .idle →
    ∃ w, (run path doc fs before).fs.text path = some (doc w).text ∧
      ((run path doc fs events).readers r = .returned (.ok (doc w).value) ∨
        (∃ inode got, (run path doc fs events).readers r = .reading inode got) ∧
          after.countP (CallEvent.isRead r) ≤ (doc w).text.length)
  returns : ∀ before w event, before ++ [.writer w event] <+: events →
    (run path doc fs before).writers w ≠ .returned true →
    (run path doc fs (before ++ [.writer w event])).writers w = .returned true →
    (run path doc fs (before ++ [.writer w event])).fs.text path = some (doc w).text

/-- The writes are atomic if no writer creates the temporary file while another one is using it. -/
theorem atomic_of_inTurn (path : String) (doc : ι → Document decoder) (fs : FileSystem String)
    (apart : Apart path fs) (events : List (CallEvent ι ρ))
    (inTurn : InTurn path doc fs events) : Atomic path doc fs events where
  reads := by
    rintro before after r rfl succeeded idle
    have sound : (run path doc fs before).Sound path doc :=
      sound_run apart (inTurn.of_prefix (prefix_append _ _))
    obtain ⟨w, inode, found, settled⟩ := sound.published succeeded
    refine ⟨w, ?_, ?_⟩
    · rw [FileSystem.text, found, Option.map_some, settled.2.2]
    · rcases follows_run apart inTurn idle found settled with returned | ⟨_, _, reading, -, pre, le⟩
      · exact Or.inl returned
      · exact Or.inr ⟨⟨_, _, reading⟩, le.trans pre.length_le⟩
  returns := by
    intro before w event inside unfinished returned
    have sound : (run path doc fs before).Sound path doc :=
      sound_run apart (inTurn.of_prefix ((prefix_append _ _).trans inside))
    rw [run_concat] at returned ⊢
    rcases (advance_step sound w event).effect with ⟨-, silent⟩ | ⟨inode, found, settled⟩
    · exact (unfinished (silent returned)).elim
    · rw [FileSystem.text, found, Option.map_some, settled.2.2]

def keyDocument : Bool → Document (jsonDecoder 10000)
  | true =>
    { value := .object [(bytes "name", .string (bytes "ci"))]
      text := bytes "\x7b\n  \"name\": \"ci\"\n\x7d\n"
      decodes := by rfl }
  | false =>
    { value := .object [(bytes "name", .string (bytes "dev"))]
      text := bytes "\x7b\n  \"name\": \"dev\"\n\x7d\n"
      decodes := by rfl }

def twoWrites : List (CallEvent Bool Unit) :=
  [.writer true .create, .writer true (.write 5), .writer true (.write 50), .writer true .close,
    .writer true .rename, .writer false .create, .writer false (.write 3), .reader () .start,
    .reader () (.read 9), .writer false (.write 50), .writer false .close, .writer false .rename,
    .reader () (.read 50)]

theorem twoWrites_atomic :
    Apart "k.json" .empty ∧ InTurn "k.json" keyDocument .empty twoWrites ∧
      Atomic "k.json" keyDocument .empty twoWrites ∧
      (run "k.json" keyDocument .empty twoWrites).readers () =
        .returned (.ok (keyDocument true).value) := by
  have apart : Apart "k.json" .empty := nofun
  have inTurn : InTurn "k.json" keyDocument .empty twoWrites :=
    Run.forall_actions_iff_forall_fin.mpr (by decide +kernel)
  exact ⟨apart, inTurn, atomic_of_inTurn _ _ _ apart _ inTurn, rfl⟩

def emptied : List (CallEvent Bool Unit) :=
  [.writer true .create, .writer true (.write 50), .writer true .close, .writer false .create,
    .writer true .rename, .reader () .start, .reader () (.read 50)]

theorem emptied_not_atomic :
    (run "k.json" keyDocument .empty emptied).writers true = .returned true ∧
      (run "k.json" keyDocument .empty emptied).fs.text "k.json" = some [] ∧
      (run "k.json" keyDocument .empty emptied).readers () = .returned (.error .malformed) ∧
      ¬Atomic "k.json" keyDocument .empty emptied := by
  refine ⟨rfl, rfl, rfl, fun atomic => ?_⟩
  have published := atomic.returns (emptied.take 4) true .rename (by decide) nofun rfl
  exact absurd published (by decide +kernel)

end Calls

end OpenThesis.Api
