import DocTree.Proofs.Threads

/-!
# Sequences with checked access

The operations on sequences once more, over an arena that refuses every id outside it. They follow
the plain operations step by step, and give `none` as soon as one link outside the sequence is read
or written. In a well-formed sequence they never do: every link that an operation comes to, starting
from links of the sequence, is one of the sequence.
-/

namespace DocTree

namespace Checked

/-- Read a link. -/
def link (s : Sequence) (id : LinkId) : Option Link := s.links[id]?

/-- Change a link. -/
def modify (s : Sequence) (id : LinkId) (f : Link → Link) : Option Sequence :=
  if id < s.size then some (s.modify id f) else none

/-- Set the link after a link. -/
def setNext (s : Sequence) (id : LinkId) (next : Option LinkId) : Option Sequence :=
  modify s id fun link => { link with next }

/-- Set the link before a link. -/
def setPrevious (s : Sequence) (id : LinkId) (previous : Option LinkId) : Option Sequence :=
  modify s id fun link => { link with previous }

/-- Set the link after a link, if there is such a link. -/
def setNextOf (s : Sequence) (id next : Option LinkId) : Option Sequence :=
  id.elim (some s) fun id => setNext s id next

/-- Set the link before a link, if there is such a link. -/
def setPreviousOf (s : Sequence) (id previous : Option LinkId) : Option Sequence :=
  id.elim (some s) fun id => setPrevious s id previous

/-- Put a link between another link and that one's successor. -/
def linkAfter (s : Sequence) (after id : LinkId) : Option Sequence := do
  let successor := (← link s after).next
  let s ← setNext s after (some id)
  let s ← setPrevious s id (some after)
  let s ← setNext s id successor
  setPreviousOf s successor (some id)

/-- Add a link right after another one, or without neighbours. -/
def pushAfter (s : Sequence) (after : Option LinkId) (token : Token) : Option Sequence :=
  match after with
  | some after => linkAfter (s.push token) after s.size
  | none => some (s.push token)

/-- Mark a link as used by a node. -/
def claim (s : Sequence) (id : LinkId) : Option Sequence :=
  modify s id fun link => if link.state = .live then { link with state := .claimed } else link

/-- Take the text out of a link. -/
def empty (s : Sequence) (id : LinkId) : Option (Sequence × String) := do
  let here ← link s id
  if here.state != .removed then
    let s ← modify s id fun link => { link with data := "", value := "", state := .emptied }
    some (s, here.data)
  else some (s, "")

/-- Take a link out of its chain. -/
def remove (s : Sequence) (id : LinkId) : Option (Sequence × Option LinkId) := do
  let here ← link s id
  if here.state != .removed then
    let alone ← modify s id fun link => { link with previous := none, next := none }
    let closed ← setNextOf alone here.previous here.next
    let closed ← setPreviousOf closed here.next here.previous
    some (← modify closed id fun link => { link with state := .removed }, here.next)
  else some (s, none)

/-- The neighbour of a link in a direction. -/
def step (s : Sequence) (direction : Direction) (id : LinkId) : Option (Option LinkId) := do
  let here ← link s id
  match direction with
  | .previous => some here.previous
  | .next => some here.next

/-- At most `count` links from a link on, itself first. -/
def trailUpTo (s : Sequence) (direction : Direction) : ℕ → LinkId → Option (List LinkId)
  | 0, _ => some []
  | count + 1, id => do
    match ← step s direction id with
    | some neighbour => some (id :: (← trailUpTo s direction count neighbour))
    | none => some [id]

/-- The links from a link on, itself first. -/
def trail (s : Sequence) (direction : Direction) (id : LinkId) : Option (List LinkId) :=
  trailUpTo s direction s.size id

/-- The first link of a link's chain. -/
def head (s : Sequence) (id : LinkId) : Option LinkId := do
  some ((← trail s .previous id).getLastD id)

/-- The nearest live link of a kind, the starting link included. Every link of the trail is read. -/
def find? (s : Sequence) (id : LinkId) (kind : String) (direction : Direction) :
    Option (Option LinkId) := do
  some ((← trail s direction id).find? fun other => s.isLive other && s.value other == kind)

/-- The run of absorbable links beside a link, in document order. -/
def siblings (s : Sequence) (id : LinkId) (kind : String) (direction : Direction) :
    Option (List LinkId) := do
  let run := ((← trail s direction id).drop 1).takeWhile (s.isAbsorbable kind)
  match direction with
  | .previous => some run.reverse
  | .next => some run

/-- Whether a link is still in a chain. -/
def isReachable (s : Sequence) (id : LinkId) : Option Bool := do
  some ((← link s id).state != .removed)

/-- Remove the links without text from `current` on; `kept` is the first link that was kept. -/
def pruneFrom : ℕ → Sequence → Option LinkId → Option LinkId →
    Option (Sequence × Option LinkId)
  | 0, s, _, kept => some (s, kept)
  | _ + 1, s, none, kept => some (s, kept)
  | fuel + 1, s, some id, kept => do
    let here ← link s id
    if here.data = "" then
      let (s, next) ← remove s id
      pruneFrom fuel s next kept
    else pruneFrom fuel s here.next (kept <|> some id)

/-- Remove every link without text from a link to the end of its chain. -/
def pruneEmpty (s : Sequence) (first : LinkId) : Option (Sequence × Option LinkId) :=
  pruneFrom ((s.size + 1) * (s.size + 1)) s (some first) none

/-! ## Nothing is refused -/

open DocTree.Sequence

variable {s : Sequence} {id other : LinkId} {token : Token}

/-- A link of the sequence can be read. -/
theorem link_eq (hid : id < s.size) : link s id = some (s.link id) := by
  have hget : s.links[id]? = some s.links[id] := Array.getElem?_eq_getElem hid
  simp [link, Sequence.link, hget]

/-- A link of the sequence can be changed. -/
theorem modify_eq (hid : id < s.size) (f : Link → Link) :
    modify s id f = some (s.modify id f) :=
  if_pos hid

/-- The link after a link of the sequence can be set. -/
theorem setNext_eq (hid : id < s.size) (next : Option LinkId) :
    setNext s id next = some (s.setNext id next) :=
  modify_eq hid _

/-- The link before a link of the sequence can be set. -/
theorem setPrevious_eq (hid : id < s.size) (previous : Option LinkId) :
    setPrevious s id previous = some (s.setPrevious id previous) :=
  modify_eq hid _

/-- The link after a link of the sequence can be set, if there is one. -/
theorem setNextOf_eq {id : Option LinkId} (hid : ∀ link ∈ id, link < s.size)
    (next : Option LinkId) :
    setNextOf s id next = some (id.elim s fun id => s.setNext id next) := by
  cases id with
  | none => rfl
  | some id => exact setNext_eq (hid id rfl) next

/-- The link before a link of the sequence can be set, if there is one. -/
theorem setPreviousOf_eq {id : Option LinkId} (hid : ∀ link ∈ id, link < s.size)
    (previous : Option LinkId) :
    setPreviousOf s id previous = some (id.elim s fun id => s.setPrevious id previous) := by
  cases id with
  | none => rfl
  | some id => exact setPrevious_eq (hid id rfl) previous

/-- Claiming a link of the sequence is not refused. -/
theorem claim_eq (hid : id < s.size) : claim s id = some (s.claim id) :=
  modify_eq hid _

/-- Emptying a link of the sequence is not refused. -/
theorem empty_eq (hid : id < s.size) : empty s id = some (s.empty id) := by
  simp only [empty, Sequence.empty, link_eq hid, modify_eq hid]
  by_cases hreach : s.isReachable id = true <;>
    simp_all [Sequence.isReachable, Sequence.state, Sequence.data]

/-- Putting a link after another one is not refused. -/
theorem linkAfter_eq {after : LinkId} (hs : s.WellFormed) (hafter : after < s.size)
    (hid : id < s.size) : linkAfter s after id = some (s.linkAfter after id) := by
  let first := s.setNext after (some id)
  let second := first.setPrevious id (some after)
  let third := second.setNext id (s.next after)
  have hfirst : id < first.size := by simpa [first, Sequence.setNext] using hid
  have hsecond : id < second.size := by simpa [second, Sequence.setPrevious] using hfirst
  have hthird : ∀ successor ∈ s.next after, successor < third.size := fun successor h => by
    simpa [third, second, first, Sequence.setNext, Sequence.setPrevious] using
      hs.next_lt after successor h
  have hlinked : linkAfter s after id = setPreviousOf third (s.next after) (some id) := by
    have hsetNext : setNext s after (some id) = some first := setNext_eq hafter _
    have hsetPrevious : setPrevious first id (some after) = some second := setPrevious_eq hfirst _
    have hsetNext' : setNext second id (s.next after) = some third := setNext_eq hsecond _
    simp only [linkAfter, link_eq hafter, Option.bind_eq_bind, Option.bind_some,
      show (s.link after).next = s.next after from rfl, hsetNext, hsetPrevious, hsetNext']
  rw [hlinked, setPreviousOf_eq hthird, Sequence.linkAfter]
  cases hsuccessor : s.next after <;> simp only [third, second, first, hsuccessor, Option.elim]

/-- Pushing after a link of the sequence is not refused. -/
theorem pushAfter_eq {after : Option LinkId} (hs : s.WellFormed)
    (hafter : ∀ link ∈ after, link < s.size) (token : Token) :
    pushAfter s after token = some (s.pushAfter after token) := by
  cases after with
  | none => rfl
  | some after =>
    exact linkAfter_eq (hs.push token) (WellFormed.lt_size_push (hafter after rfl) token) (by simp)

/-- Removing a link of the sequence is not refused. -/
theorem remove_eq (hs : s.WellFormed) (hid : id < s.size) : remove s id = some (s.remove id) := by
  cases hreach : s.isReachable id with
  | false =>
    have hstate : ((s.link id).state != .removed) = false := hreach
    simp only [remove, Sequence.remove, link_eq hid, Option.bind_eq_bind, Option.bind_some, hstate,
      hreach, Bool.false_eq_true, if_false]
  | true =>
    have hstate : ((s.link id).state != .removed) = true := hreach
    let alone := s.modify id fun link => { link with previous := none, next := none }
    let closed := (s.previous id).elim alone fun previous => alone.setNext previous (s.next id)
    let closed' := (s.next id).elim closed fun next => closed.setPrevious next (s.previous id)
    have halone : ∀ previous ∈ s.previous id, previous < alone.size := fun previous h => by
      simpa [alone] using hs.previous_lt previous id h
    have hsize : closed.size = s.size := by
      cases h : s.previous id <;> simp [closed, alone, h, Sequence.setNext]
    have hclosed : ∀ next ∈ s.next id, next < closed.size := fun next h =>
      hsize ▸ hs.next_lt id next h
    have hclosed' : id < closed'.size := by
      cases h : s.next id <;> simpa [closed', h, Sequence.setPrevious, hsize] using hid
    have hremoved : remove s id =
        some (closed'.modify id fun link => { link with state := .removed }, s.next id) := by
      simp only [remove, link_eq hid, hstate, if_true, modify_eq hid, Option.bind_eq_bind,
        Option.bind_some, show (s.link id).previous = s.previous id from rfl,
        show (s.link id).next = s.next id from rfl]
      rw [setNextOf_eq halone, Option.bind_some, setPreviousOf_eq hclosed, Option.bind_some,
        modify_eq hclosed', Option.bind_some]
    rw [hremoved, Sequence.remove, if_pos hreach]
    cases hp : s.previous id <;> cases hn : s.next id <;>
      simp only [closed', closed, alone, hp, hn, Option.elim]

/-- Walking from a link of the sequence is not refused. -/
theorem trailUpTo_eq (hs : s.WellFormed) (direction : Direction) (count : ℕ) (hid : id < s.size) :
    trailUpTo s direction count id = some (s.trailUpTo direction count id) := by
  induction count generalizing id with
  | zero => rfl
  | succ count ih =>
    have hstep : step s direction id = some (s.step direction id) := by
      cases direction <;> simp [step, link_eq hid, Sequence.step, Sequence.next, Sequence.previous]
    simp only [trailUpTo, Sequence.trailUpTo, hstep]
    cases hneighbour : s.step direction id with
    | none => rfl
    | some neighbour => simp [ih (hs.step_lt hneighbour)]

/-- Walking from a link of the sequence is not refused. -/
theorem trail_eq (hs : s.WellFormed) (direction : Direction) (hid : id < s.size) :
    trail s direction id = some (s.trail direction id) :=
  trailUpTo_eq hs direction s.size hid

/-- Finding the head of a chain is not refused. -/
theorem head_eq (hs : s.WellFormed) (hid : id < s.size) : head s id = some (s.head id) := by
  simp [head, trail_eq hs .previous hid, Sequence.head]

/-- Searching a chain is not refused. -/
theorem find?_eq (hs : s.WellFormed) (hid : id < s.size) (kind : String) (direction : Direction) :
    find? s id kind direction = some (s.find? id kind direction) := by
  simp [find?, trail_eq hs direction hid, Sequence.find?]

/-- Looking for a run is not refused. -/
theorem siblings_eq (hs : s.WellFormed) (hid : id < s.size) (kind : String)
    (direction : Direction) :
    siblings s id kind direction = some (s.siblings id kind direction) := by
  cases direction <;> simp [siblings, trail_eq hs _ hid, Sequence.siblings]

/-- Looking at the state of a link of the sequence is not refused. -/
theorem isReachable_eq (hid : id < s.size) : isReachable s id = some (s.isReachable id) := by
  simp [isReachable, link_eq hid, Sequence.isReachable, Sequence.state]

/-- Pruning from a link of the sequence on is not refused. -/
theorem pruneFrom_eq (hs : s.WellFormed) (fuel : ℕ) {current : Option LinkId}
    (hcurrent : ∀ id ∈ current, id < s.size) (kept : Option LinkId) :
    pruneFrom fuel s current kept = some (Sequence.pruneFrom fuel s current kept) := by
  induction fuel generalizing s current kept with
  | zero => rfl
  | succ fuel ih =>
    cases current with
    | none => rfl
    | some id =>
      have hid := hcurrent id rfl
      simp only [pruneFrom, Sequence.pruneFrom, link_eq hid, remove_eq hs hid]
      by_cases hdata : (s.link id).data = ""
      · have hrest := ih (hs.remove hid) (hs.threaded.remove_snd_lt id) kept
        simpa [hdata, data] using hrest
      · simpa [hdata, data, next] using ih hs (hs.next_lt id) (kept <|> some id)

/-- Pruning from a link of the sequence on is not refused. -/
theorem pruneEmpty_eq (hs : s.WellFormed) (hid : id < s.size) :
    pruneEmpty s id = some (s.pruneEmpty id) := by
  refine pruneFrom_eq hs _ (fun first hfirst => ?_) none
  obtain rfl := Option.some.inj hfirst
  exact hid

end Checked

end DocTree
