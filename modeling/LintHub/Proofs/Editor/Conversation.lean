import LintHub.Proofs.Editor.Messages

/-!
# Conversations

* `Conversation` is a session with its disk and its history, `Conversation.Event` is what can happen to it.
* `Conversation.shown` is the list that the history last published for a document: what the editor shows.
* `Shows` : the editor shows what the session stores. `Shows.handle` says that each message keeps it.
* `Conversation.agrees_run` : after any events, the readers of the session speak of what the editor shows.
-/

namespace LintHub

/-! ## What an editor shows -/

/-- A message that was taken, and what the editor was told meanwhile. -/
structure Turn where
  message : ClientMessage
  told : List Notice

/-- What an editor shows for a document after notices, if it showed `before`. -/
def Notice.showing (url : Url) (before : List Mark) : List Notice → List Mark
  | [] => before
  | .publish other marks _ :: rest => showing url (if other = url then marks else before) rest
  | .log .. :: rest => showing url before rest
  | .popUp .. :: rest => showing url before rest
  | .watchSettings :: rest => showing url before rest

namespace Notice

variable {url other : Url} {before : List Mark}

theorem showing_append (first rest : List Notice) :
    showing url before (first ++ rest) = showing url (showing url before first) rest := by
  induction first generalizing before with
  | nil => rfl
  | cons notice first ih => cases notice <;> exact ih

theorem showing_notices (version : Option Int) (failures : List ToolFailure) (marks : List Mark) :
    showing url before (Session.notices other version failures marks) = if other = url then marks else before := by
  induction failures with
  | nil => rfl
  | cons failure failures ih => exact ih

end Notice

/-! ## What a message keeps -/

/-- An editor that shows these marks for each document shows what the session stores. -/
structure Shows (view : Url → List Mark) (s : Session) : Prop where
  entries : ∀ url, (view url).map Mark.gist = (s.findingsOf url).map Finding.gist
  /-- What is stored for a document is about its own file. -/
  ownFile : ∀ url, ∀ f ∈ s.findingsOf url, ∃ path, url.filePath? = some path ∧ f.file.same path = true

namespace Shows

variable {view : Url → List Mark} {w : Surroundings} {s s' : Session} {d : Disk}

theorem congr (h : Shows view s) (hstored : s'.stored = s.stored) : Shows view s' := by
  refine ⟨fun url => ?_, fun url => ?_⟩
  · rw [Session.findingsOf_of_stored hstored]
    exact h.entries url
  · rw [Session.findingsOf_of_stored hstored]
    exact h.ownFile url

theorem validate (h : Shows view s) (w : Surroundings) (d : Disk) (url : Url) (version : Option Int) :
    Shows (fun other => Notice.showing other (view other) (s.validate w d url version).1)
      (s.validate w d url version).2.1 := by
  obtain ⟨-, ⟨hsilent, hstored⟩ | ⟨path, found, failures, hpath, hown, htold, hstored⟩⟩ :=
    s.validate_cases w d url version
  · rw [hsilent]
    exact h.congr hstored
  · rw [htold]
    simp only [Notice.showing_notices]
    refine ⟨fun other => ?_, fun other f hf => ?_⟩
    · rw [Session.findingsOf_of_replace hstored]
      by_cases hother : other = url
      · rw [if_pos hother.symm, if_pos hother, List.map_map]
        exact List.map_congr_left fun f _ => Mark.gist_of f _
      · rw [if_neg (Ne.symm hother), if_neg hother]
        exact h.entries other
    · rw [Session.findingsOf_of_replace hstored] at hf
      split at hf
      · next heq => exact ⟨path, by rw [heq, hpath], hown f hf⟩
      · exact h.ownFile other f hf

theorem validateAll (h : Shows view s) (w : Surroundings) (d : Disk) (urls : List Url) :
    Shows (fun other => Notice.showing other (view other) (s.validateAll w d urls).1)
      (s.validateAll w d urls).2.1 := by
  induction urls generalizing view s d with
  | nil => exact h
  | cons url rest ih =>
    simp only [Session.validateAll, Notice.showing_append]
    exact ih (h.validate w d url none) _

theorem execute (h : Shows view s) (w : Surroundings) (d : Disk) (c : EditorCommand) :
    Shows (fun other => Notice.showing other (view other) (s.execute w d c).1) (s.execute w d c).2.1 := by
  have hperformed := h.congr (s.perform_frame w d c).2
  obtain ⟨text, htold, hafter⟩ | heq := s.execute_cases w d c
  · rw [htold, hafter]
    exact hperformed
  · rw [heq]
    exact hperformed.validate w _ c.url none

theorem close (h : Shows view s) (url : Url) :
    Shows (fun other => if url = other then [] else view other)
      { s with documents := Session.without url s.documents, stored := Session.without url s.stored } := by
  refine ⟨fun other => ?_, fun other f hf => ?_⟩
  · rw [Session.findingsOf_of_without rfl]
    by_cases hother : other = url
    · rw [if_pos hother.symm, if_pos hother]
      rfl
    · rw [if_neg (Ne.symm hother), if_neg hother]
      exact h.entries other
  · rw [Session.findingsOf_of_without rfl] at hf
    split at hf
    · cases hf
    · exact h.ownFile other f hf

/-- Each message tells the editor what it changes. -/
theorem handle (h : Shows view s) (w : Surroundings) (d : Disk) (m : ClientMessage) :
    Shows (fun other => Notice.showing other (view other) (s.handle w d m).2.1) (s.handle w d m).2.2.1 := by
  cases m with
  | start root watches =>
    unfold Session.handle
    dsimp only
    split
    · exact h.congr rfl
    · exact h.congr (Session.reload_frame w _ d).2
  | started =>
    unfold Session.handle
    dsimp only
    split
    · exact h
    · exact h
  | shutdown => exact h
  | didOpen url version text =>
    have hopened : Shows view (s.withDocument url version text) := h.congr rfl
    exact hopened.validate w d url (some version)
  | didChange url version text =>
    cases text with
    | none => exact h
    | some text => exact h.congr rfl
  | didSave url => exact h.validate w d url _
  | didClose url => exact h.close url
  | filesChanged urls =>
    rw [Session.handle]
    split
    · exact (h.congr (Session.reload_frame w s d).2).validateAll w d _
    · exact h
  | hover url line => exact h
  | actions url range only =>
    rw [Session.handle]
    split
    · exact h
    · exact h
  | execute name command =>
    cases command with
    | none => exact h
    | some c => exact h.execute w d c

/-! ## What the readers say -/

theorem isSome_hover?_iff (h : Shows view s) (url : Url) (line : Nat) :
    (Finding.hover? (s.findingsOf url) line).isSome = true ↔ ∃ m ∈ view url, m.range.start.line = line := by
  have hgists (g : Gist) : (∃ m ∈ view url, m.gist = g) ↔ ∃ f ∈ s.findingsOf url, f.gist = g := by
    rw [← List.mem_map, h.entries, List.mem_map]
  rw [Option.isSome_iff_ne_none, Ne, Finding.hover?_eq_none_iff]
  constructor
  · intro hsaid
    obtain ⟨f, hf, hrow⟩ : ∃ f ∈ s.findingsOf url, f.row = line := by simpa using hsaid
    obtain ⟨m, hm, hgist⟩ := (hgists f.gist).2 ⟨f, hf, rfl⟩
    exact ⟨m, hm, (congrArg Gist.line hgist).trans hrow⟩
  · rintro ⟨m, hm, hline⟩ hnone
    obtain ⟨f, hf, hgist⟩ := (hgists m.gist).1 ⟨m, hm, rfl⟩
    exact hnone f hf ((congrArg Gist.line hgist).trans hline)

theorem exists_of_mem_offered (h : Shows view s) {url : Url} {text : Option String} {range : Range} {a : Action}
    (ha : a ∈ Action.offered url text (s.findingsOf url) range) :
    ∃ m ∈ view url, m.gist = a.mark.gist ∧ range.hasLine m.range.start.line = true := by
  obtain ⟨f, hf, hrow, hmark⟩ := Action.exists_of_mem_offered ha
  have hmem : f.gist ∈ (view url).map Mark.gist := by
    rw [h.entries]
    exact List.mem_map_of_mem hf
  obtain ⟨m, hm, hgist⟩ := List.mem_map.1 hmem
  refine ⟨m, hm, ?_, ?_⟩
  · rw [hgist, hmark, Mark.gist_of]
  · rw [show m.range.start.line = f.row from congrArg Gist.line hgist]
    exact hrow

end Shows

/-! ## Conversations -/

/-- A session with its disk, and its history, the newest turn first. -/
structure Conversation where
  session : Session
  disk : Disk
  past : List Turn

namespace Conversation

/-- The list that a history, the newest turn first, last published for a document. Before the first it is empty. -/
def shown (url : Url) : List Turn → List Mark
  | [] => []
  | turn :: past => Notice.showing url (shown url past) turn.told

/-- What can happen to a conversation. Each message comes in surroundings of its own: the tools may say anything. -/
inductive Event where
  | message (w : Surroundings) (m : ClientMessage)
  /-- Someone else changes the disk: settings, documents or anything. -/
  | edit (change : Disk → Disk)
  /-- The documents are listed in another order, as a table by hashes may have them. -/
  | reorder (documents : List (Url × OpenDocument))

def start (d : Disk) : Conversation := ⟨.new, d, []⟩

def step (c : Conversation) : Event → Conversation
  | .message w m =>
    let (_, told, session, disk) := c.session.handle w c.disk m
    ⟨session, disk, ⟨m, told⟩ :: c.past⟩
  | .edit change => { c with disk := change c.disk }
  | .reorder documents =>
    if documents.isPerm c.session.documents then { c with session := { c.session with documents } } else c

def run (c : Conversation) (events : List Event) : Conversation := events.foldl step c

/-- The answer to a message that would come next. -/
def reply (c : Conversation) (w : Surroundings) (m : ClientMessage) : Reply := (c.session.handle w c.disk m).1

variable {c : Conversation}

theorem shows_step (h : Shows (shown · c.past) c.session) (event : Event) :
    Shows (shown · (c.step event).past) (c.step event).session := by
  cases event with
  | message w m => exact h.handle w c.disk m
  | edit change => exact h
  | reorder documents =>
    unfold step
    dsimp only
    split
    · exact h.congr rfl
    · exact h

theorem shows_run (h : Shows (shown · c.past) c.session) (events : List Event) :
    Shows (shown · (c.run events).past) (c.run events).session := by
  induction events generalizing c with
  | nil => exact h
  | cons event rest ih => exact ih (shows_step h event)

theorem shows_start (d : Disk) : Shows (shown · (start d).past) (start d).session :=
  ⟨fun _ => rfl, fun _ f hf => by cases hf⟩

structure Agrees (c : Conversation) : Prop where
  entries : ∀ url, (shown url c.past).map Mark.gist = (c.session.findingsOf url).map Finding.gist
  ownFile : ∀ url, ∀ f ∈ c.session.findingsOf url, ∃ path, url.filePath? = some path ∧ f.file.same path = true
  /-- Something is said of a line just if a mark that is shown starts there. -/
  hover : ∀ w url line, ∃ markdown, c.reply w (.hover url line) = .hover markdown ∧
    (markdown.isSome = true ↔ ∃ m ∈ shown url c.past, m.range.start.line = line)
  /-- Actions are offered for marks that are shown and start in the range. -/
  actions : ∀ w url range only, ∃ offered, c.reply w (.actions url range only) = .actions offered ∧
    ∀ a ∈ offered.getD [], ∃ m ∈ shown url c.past, m.gist = a.mark.gist ∧ range.hasLine m.range.start.line = true

/-- Whatever is said, whatever the tools answer and whoever changes the disk, what the editor shows agrees with what
is stored, and with what is answered from it. -/
theorem agrees_run (d : Disk) (events : List Event) : ((start d).run events).Agrees := by
  have h := shows_run (shows_start d) events
  refine ⟨h.entries, h.ownFile, fun w url line => ?_, fun w url range only => ?_⟩
  · exact ⟨_, rfl, h.isSome_hover?_iff url line⟩
  · unfold reply Session.handle
    dsimp only
    split
    · exact ⟨_, rfl, fun a ha => h.exists_of_mem_offered ha⟩
    · exact ⟨none, rfl, fun a ha => by cases ha⟩

end Conversation

end LintHub
