import Mathlib.Data.List.Forall2
import ChordPad.Board.Rig
import ChordPad.Proofs.Rounds
import ChordPad.Proofs.Sending

/-! What the rounds of a keyboard send. The chords of the reported keys and the lamp around them are
asked for in every round, whatever becomes of the packets and of the lamp, and even while packets
have to wait; and nothing of that comes back to the scanner. -/
namespace ChordPad
variable {β ε : Type} [Board β] [Endpoint ε] {size : Nat}

/-- The request that an event shows; packets belong to the one before them. -/
def Event.request? : Event → Option Request
  | .lamp level _ => some (.lamp level)
  | .chord codes => some (.send codes)
  | .packet _ _ => none

/-- The chord that an event shows to be sent. -/
def Event.chord? : Event → Option (List KeyCode)
  | .chord codes => some codes
  | _ => none

/-- The request that a task shows. -/
def Task.request? : Task → Option Request
  | .lamp level => some (.lamp level)
  | .chord codes => some (.send codes)
  | _ => none

theorem filterMap_request?_tasks (request : Request) :
    request.tasks.filterMap Task.request? = [request] := by
  cases request with
  | lamp level => rfl
  | send chord =>
    have hpresses : (chord.map Task.press).filterMap Task.request? = [] := by
      simp [List.filterMap_eq_nil_iff, Task.request?]
    rw [Request.tasks, List.filterMap_append, List.filterMap_cons, hpresses]
    rfl

theorem filterMap_request?_flatMap_tasks (requests : List Request) :
    (requests.flatMap Request.tasks).filterMap Task.request? = requests := by
  induction requests with
  | nil => rfl
  | cons request requests ih =>
    rw [List.flatMap_cons, List.filterMap_append, filterMap_request?_tasks, ih]
    rfl

namespace Station

/-- The tasks are carried out to the end with these events, while anything may happen to the lamp and
to the endpoint after each of them. What is left of a task that had to wait is carried out next. -/
inductive Carries : Station ε → List Task → List Event → Station ε → Prop
  | finished (st : Station ε) : Carries st [] [] st
  | task {st mid next : Station ε} {task : Task} {rest : List Task} {events later : List Event}
      {progress : Progress} (lampWorks : Bool) (change : ε → ε) :
      st.attempt task = (mid, events, progress) → progress ≠ .noPacketSize →
      Carries { mid with lampWorks, endpoint := change mid.endpoint } (progress.left ++ rest) later
        next →
      Carries st (task :: rest) (events ++ later) next

theorem attempt_requests (st : Station ε) (task : Task) :
    (st.attempt task).2.1.filterMap Event.request? = task.request?.toList ∧
      (st.attempt task).2.2.left.filterMap Task.request? = [] := by
  have hpackets (wrote : ε × List ReportWriter.Attempt × ReportWriter.Outcome) :
      (st.written wrote).2.1.filterMap Event.request? = [] ∧
        (st.written wrote).2.2.left.filterMap Task.request? = [] := by
    obtain ⟨next, attempts, outcome⟩ := wrote
    constructor
    · simp [written, List.filterMap_eq_nil_iff, Event.request?]
    · cases outcome <;> rfl
  cases task with
  | report => exact hpackets _
  | packets left => exact hpackets _
  | _ => exact ⟨rfl, rfl⟩

namespace Carries
variable {st next : Station ε} {tasks u v : List Task} {events : List Event}

theorem requests (h : Carries st tasks events next) :
    events.filterMap Event.request? = tasks.filterMap Task.request? := by
  induction h with
  | finished st => rfl
  | @task st mid next task rest events later progress _ _ hattempt _ _ ih =>
    obtain ⟨hevents, hleft⟩ := attempt_requests st task
    rw [hattempt] at hevents hleft
    rw [List.filterMap_append, ih, List.filterMap_append, hevents, hleft, List.filterMap_cons]
    cases task.request? <;> rfl

theorem split (h : Carries st (u ++ v) events next) :
    ∃ mid earlier later, Carries st u earlier mid ∧ Carries mid v later next ∧
      events = earlier ++ later := by
  generalize htasks : u ++ v = tasks at h
  induction h generalizing u with
  | finished st =>
    obtain ⟨rfl, rfl⟩ := List.append_eq_nil_iff.1 htasks
    exact ⟨st, [], [], .finished st, .finished st, rfl⟩
  | @task st mid next task rest events later progress works change hattempt hsize hrest ih =>
    cases u with
    | nil =>
      obtain rfl : v = task :: rest := htasks
      exact ⟨st, [], events ++ later, .finished st, .task works change hattempt hsize hrest, rfl⟩
    | cons first u =>
      obtain ⟨rfl, rfl⟩ := List.cons_eq_cons.1 htasks
      obtain ⟨last, before, after, hbefore, hafter, rfl⟩ := ih (List.append_assoc _ _ _)
      exact ⟨last, events ++ before, after, .task works change hattempt hsize hbefore, hafter,
        (List.append_assoc _ _ _).symm⟩

theorem lamp {level : Level} (h : Carries st [.lamp level] events next) :
    ∃ taken, events = [.lamp level taken] := by
  cases h with
  | task works change hattempt _ hrest =>
    cases hattempt
    cases hrest with
    | finished last => exact ⟨_, rfl⟩

end Carries

theorem carries_of_perform {st next : Station ε} {tasks : List Task} {events : List Event}
    (h : st.perform tasks = (next, events, .finished)) : Carries st tasks events next := by
  induction tasks generalizing st events with
  | nil =>
    cases h
    exact .finished _
  | cons task rest ih =>
    rw [perform] at h
    split at h
    · rename_i mid now hattempt
      cases hp : mid.perform rest with
      | mk last more =>
        obtain ⟨later, progress⟩ := more
        rw [hp] at h
        cases h
        exact .task mid.lampWorks id hattempt (by simp) (ih hp)
    · cases h
    · cases h

theorem attempt_of_answers (hs : 0 < size) {st : Station ε} (h : Endpoint.Answers size st.endpoint)
    (task : Task) : (st.attempt task).2.2 = .finished ∧
      Endpoint.Answers size (st.attempt task).1.endpoint := by
  cases task with
  | report =>
    obtain ⟨hover, hnext⟩ := ReportWriter.write_of_answers hs h st.report.bytes
    rw [attempt, written_of_isOver st hover]
    exact ⟨rfl, hnext⟩
  | packets left =>
    obtain ⟨hover, hnext⟩ := ReportWriter.writePackets_of_answers h left
    rw [attempt, written_of_isOver st hover]
    exact ⟨rfl, hnext⟩
  | _ => exact ⟨rfl, h⟩

theorem perform_of_answers (hs : 0 < size) {st : Station ε} (h : Endpoint.Answers size st.endpoint)
    (tasks : List Task) : ∃ (next : Station ε) (events : List Event),
      st.perform tasks = (next, events, .finished) ∧ Endpoint.Answers size next.endpoint := by
  induction tasks generalizing st with
  | nil => exact ⟨st, [], rfl, h⟩
  | cons task rest ih =>
    obtain ⟨hfinished, hnext⟩ := attempt_of_answers hs h task
    obtain ⟨last, later, hlater, hlast⟩ := ih hnext
    have hattempt : st.attempt task =
        ((st.attempt task).1, (st.attempt task).2.1, .finished) := by rw [← hfinished]
    refine ⟨last, (st.attempt task).2.1 ++ later, ?_, hlast⟩
    rw [perform_cons hattempt, hlater]

end Station

/-- The events of a round whose pass reports these keys: the lamp is lit before the chords of the keys
are sent and put out behind their last packet; without keys it is only put out. -/
inductive Shows (map : ChordMap) : List KeyCode → List Event → Prop
  | idle (out : Bool) : Shows map [] [.lamp .low out]
  | busy {keys : List KeyCode} {middle : List Event} (lit out : Bool) : keys ≠ [] →
      middle.filterMap Event.request? = (map.chords keys).map .send →
      Shows map keys (.lamp .high lit :: middle ++ [.lamp .low out])

theorem filterMap_chord?_of_requests {events : List Event} {chords : List (List KeyCode)}
    (h : events.filterMap Event.request? = chords.map .send) :
    events.filterMap Event.chord? = chords := by
  induction events generalizing chords with
  | nil => simpa using h
  | cons event events ih =>
    cases event with
    | lamp level taken => cases chords <;> simp [Event.request?] at h
    | packet bytes taken => exact ih h
    | chord codes =>
      cases chords with
      | nil => simp [Event.request?] at h
      | cons chord chords =>
        obtain ⟨rfl, hrest⟩ : codes = chord ∧
            events.filterMap Event.request? = chords.map .send := by simpa [Event.request?] using h
        exact congrArg (codes :: ·) (ih hrest)

namespace Shows
variable {map : ChordMap} {keys : List KeyCode} {events : List Event}

theorem of_carries {st next : Station ε}
    (h : st.Carries ((map.requests keys).flatMap Request.tasks) events next) :
    Shows map keys events := by
  cases keys with
  | nil =>
    obtain ⟨out, rfl⟩ := Station.Carries.lamp h
    exact .idle out
  | cons key keys =>
    have htasks : (map.requests (key :: keys)).flatMap Request.tasks = [.lamp .high] ++
        (((map.chords (key :: keys)).map .send).flatMap Request.tasks ++ [.lamp .low]) := by
      simp [ChordMap.requests, Request.tasks]
    rw [htasks] at h
    obtain ⟨_, _, _, hhigh, hrest, rfl⟩ := h.split
    obtain ⟨_, _, _, hmiddle, hlow, rfl⟩ := hrest.split
    obtain ⟨lit, rfl⟩ := hhigh.lamp
    obtain ⟨out, rfl⟩ := hlow.lamp
    refine .busy lit out (List.cons_ne_nil _ _) ?_
    rw [hmiddle.requests, filterMap_request?_flatMap_tasks]

theorem requests_eq (h : Shows map keys events) :
    events.filterMap Event.request? = map.requests keys := by
  cases h with
  | idle out => rfl
  | busy lit out hne hmiddle =>
    cases keys with
    | nil => exact absurd rfl hne
    | cons key keys =>
      simp [Event.request?, ChordMap.requests, hmiddle]

theorem chords_eq (h : Shows map keys events) :
    events.filterMap Event.chord? = map.chords keys := by
  cases h with
  | idle out => rfl
  | busy lit out hne hmiddle =>
    rw [List.cons_append, List.filterMap_cons, List.filterMap_append,
      filterMap_chord?_of_requests hmiddle]
    exact List.append_nil _

end Shows

namespace Round

/-- The rounds, each after a change, come to their ends with these events, while anything may happen
to the lamp and to the endpoint. -/
inductive Runs (map : ChordMap) : Round β ε → List (Change β ε) → List (List Event) → Round β ε → Prop
  | finished (r : Round β ε) : Runs map r [] [] r
  | round {r last : Round β ε} {c : Change β ε} {rest : List (Change β ε)} {events : List Event}
      {later : List (List Event)} {scanner : Scanner} {board : β} {keys : List KeyCode}
      {station : Station ε} : r.scanner.scan (c.board r.board) = (scanner, board, keys) →
      (r.change c).station.Carries ((map.requests keys).flatMap Request.tasks) events station →
      Runs map ⟨scanner, board, station⟩ rest later last →
      Runs map r (c :: rest) (events :: later) last

variable {map : ChordMap} {r last : Round β ε} {changes : List (Change β ε)}
  {rounds : List (List Event)}

theorem Runs.shows (h : Runs map r changes rounds last) :
    List.Forall₂ (fun scan events => Shows map scan.2 events)
      (r.scanner.scans r.board (changes.map (·.board))) rounds := by
  induction h with
  | finished r => exact .nil
  | round hscan hcarries _ ih =>
    rw [List.map_cons, Scanner.scans, hscan]
    exact .cons (.of_carries hcarries) ih

theorem Runs.scanner_eq (h : Runs map r changes rounds last) :
    last.scanner = (r.scanner.run (r.sights changes)).1 := by
  induction h with
  | finished r => rfl
  | @round r last c rest events later scanner board keys station hscan _ _ ih =>
    have hnext : scanner = (r.scanner.scan (c.board r.board)).1 := by rw [hscan]
    have hboard : board = (r.scanner.scan (c.board r.board)).2.1 := by rw [hscan]
    subst hnext
    subst hboard
    exact ih

theorem exists_turn_eq (hs : 0 < size) (map : ChordMap) (h : Endpoint.Answers size r.station.endpoint) :
    ∃ (station : Station ε) (events : List Event),
      r.turn map = (⟨(r.scanner.scan r.board).1, (r.scanner.scan r.board).2.1, station⟩, events,
        .finished) ∧
      r.station.Carries ((map.requests (r.scanner.scan r.board).2.2).flatMap Request.tasks) events
        station ∧
      Endpoint.Answers size station.endpoint := by
  obtain ⟨station, events, hperform, hnext⟩ := Station.perform_of_answers hs h
    ((map.requests (r.scanner.scan r.board).2.2).flatMap Request.tasks)
  have hdispatch : r.station.dispatch map (r.scanner.scan r.board).2.2 =
      (station, events, .finished) := hperform
  exact ⟨station, events, by simp only [turn, hdispatch], Station.carries_of_perform hperform, hnext⟩

theorem runs_run (hs : 0 < size) (map : ChordMap) (h : Endpoint.Answers size r.station.endpoint)
    (hchanges : ∀ c ∈ changes, ∀ e : ε, Endpoint.Answers size e →
      Endpoint.Answers size (c.endpoint e)) :
    Runs map r changes (r.run map changes).2 (r.run map changes).1 := by
  induction changes generalizing r with
  | nil => exact .finished r
  | cons c changes ih =>
    have hchange : Endpoint.Answers size (r.change c).station.endpoint :=
      hchanges c List.mem_cons_self _ h
    obtain ⟨station, events, hturn, hcarries, hnext⟩ := exists_turn_eq hs map hchange
    have hrest := ih (r := ((r.change c).turn map).1) (by rw [hturn]; exact hnext)
      fun c hc => hchanges c (List.mem_cons_of_mem _ hc)
    rw [run]
    rw [hturn] at hrest ⊢
    exact .round rfl hcarries hrest

theorem requests_of_shows {scans : List (Scanner × List KeyCode)}
    (h : List.Forall₂ (fun scan events => Shows map scan.2 events) scans rounds) :
    rounds.map (·.filterMap Event.request?) = scans.map fun scan => map.requests scan.2 := by
  induction h with
  | nil => rfl
  | cons hshows _ ih => rw [List.map_cons, List.map_cons, hshows.requests_eq, ih]

theorem chords_of_shows {scans : List (Scanner × List KeyCode)}
    (h : List.Forall₂ (fun scan events => Shows map scan.2 events) scans rounds) :
    rounds.flatten.filterMap Event.chord? = (scans.flatMap (·.2)).filterMap map.chord? := by
  induction h with
  | nil => rfl
  | cons hshows _ ih =>
    rw [List.flatten_cons, List.filterMap_append, hshows.chords_eq, ih, List.flatMap_cons,
      List.filterMap_append]
    rfl

/-- The chords that are sent are those of the keys that the scans report, in order, each framed by the
lamp with the others of its round. Nothing of that is any different when packets are refused or have
to wait, or when the lamp does not work at times, and the scanner comes to the same state. -/
theorem presses_sent_once (hs : 0 < size) (map : ChordMap)
    (h : Endpoint.Answers size r.station.endpoint)
    (hchanges : ∀ c ∈ changes, ∀ e : ε, Endpoint.Answers size e →
      Endpoint.Answers size (c.endpoint e)) :
    let scans := r.scanner.scans r.board (changes.map (·.board))
    let whole := r.run map changes
    whole.2.flatten.filterMap Event.chord? = (scans.flatMap (·.2)).filterMap map.chord? ∧
    List.Forall₂ (fun scan events => Shows map scan.2 events) scans whole.2 ∧
    r.Runs map changes whole.2 whole.1 ∧
    ∀ {φ : Type} [Endpoint φ] {other last : Round β φ} {others : List (Change β φ)}
      {rounds : List (List Event)}, other.scanner = r.scanner → other.board = r.board →
      others.map (·.board) = changes.map (·.board) → other.Runs map others rounds last →
        last.scanner = whole.1.scanner ∧
        rounds.map (·.filterMap Event.request?) = whole.2.map (·.filterMap Event.request?) ∧
        List.Forall₂ (fun scan events => Shows map scan.2 events) scans rounds := by
  intro scans whole
  have hruns : r.Runs map changes whole.2 whole.1 := runs_run hs map h hchanges
  have hshows := hruns.shows
  refine ⟨chords_of_shows hshows, hshows, hruns, ?_⟩
  intro φ _ other last others rounds hscanner hboard hothers hother
  have hsights : other.sights others = r.sights changes := by
    rw [sights, sights, hscanner, hboard, hothers]
  have hother_shows := hother.shows
  rw [hscanner, hboard, hothers] at hother_shows
  refine ⟨?_, ?_, hother_shows⟩
  · rw [hother.scanner_eq, hruns.scanner_eq, hscanner, hsights]
  · rw [requests_of_shows hother_shows, requests_of_shows hshows]

/-- Four presses in three rounds, one of them of a key without a chord; once while the lamp
does not work and packets are refused, and once while all goes well. -/
theorem presses_sent_once_refused :
    let map : ChordMap := [(0x04, [0xe0, 0x04]), (0x05, [0x05]), (0x04, [0x06])]
    let s : Scanner := ⟨⟨[0x04, 0x4a, 0x05], 3⟩, { debounce := .passes 1 }, 2, List.replicate 3 {}⟩
    let rig : Rig := { time := 0, outputs := [{ level := some .high }] }
    let touch (contacts : Contacts) (rig : Rig) : Rig := { rig with contacts }
    let refuse (e : Scripted) : Scripted :=
      { e with results := [.taken, .refused .disabled, .refused .overflow] }
    let changes : List (Change Rig Scripted) :=
      [{ board := touch [(2, 0), (0, 0)], endpoint := refuse, lampWorks := false },
        { board := touch [(1, 0)] }, { board := touch [(0, 0)], endpoint := refuse }]
    let others : List (Change Rig Scripted) := changes.map fun c => { board := c.board }
    let r : Round Rig Scripted := ⟨s, rig, { endpoint := { packetSize := 8 } }⟩
    0 < 8 ∧ Endpoint.Answers 8 r.station.endpoint ∧
      (∀ c ∈ changes, ∀ e : Scripted, Endpoint.Answers 8 e → Endpoint.Answers 8 (c.endpoint e)) ∧
      (r.run map changes).2.flatten.filterMap Event.chord? =
        [[0xe0, 0x04], [0x05], [0xe0, 0x04]] ∧
      r.Runs map others (r.run map others).2 (r.run map others).1 ∧
      (r.run map others).2 ≠ (r.run map changes).2 ∧
      (r.run map others).1.scanner = (r.run map changes).1.scanner ∧
      (r.run map others).2.map (·.filterMap Event.request?) =
        (r.run map changes).2.map (·.filterMap Event.request?) := by
  intro map s rig touch refuse changes others r
  have hanswers : Endpoint.Answers 8 r.station.endpoint := Scripted.answers 8 (by decide)
  have hrefuse (e : Scripted) (he : Endpoint.Answers 8 e) : Endpoint.Answers 8 (refuse e) := by
    have hscript : refuse e =
        { packetSize := 8, results := [.taken, .refused .disabled, .refused .overflow] } :=
      congrArg (Scripted.mk · _) he.packetSize_eq
    rw [hscript]
    exact Scripted.answers 8 (by decide)
  have hchanges : ∀ c ∈ changes, ∀ e : Scripted, Endpoint.Answers 8 e →
      Endpoint.Answers 8 (c.endpoint e) := by
    intro c hc
    simp only [changes, List.mem_cons, List.not_mem_nil, or_false] at hc
    rcases hc with rfl | rfl | rfl
    · exact hrefuse
    · exact fun _ he => he
    · exact hrefuse
  have hothers : ∀ c ∈ others, ∀ e : Scripted, Endpoint.Answers 8 e →
      Endpoint.Answers 8 (c.endpoint e) := by
    intro c hc
    obtain ⟨_, _, rfl⟩ := List.mem_map.1 hc
    exact fun _ he => he
  obtain ⟨hchords, -, -, hsame⟩ := presses_sent_once (by decide) map hanswers hchanges
  obtain ⟨-, -, hruns, -⟩ := presses_sent_once (by decide) map hanswers hothers
  have hboards : others.map (·.board) = changes.map (·.board) := rfl
  obtain ⟨hscanner, hrequests, -⟩ := hsame rfl rfl hboards hruns
  exact ⟨by decide, hanswers, hchanges, hchords.trans (by decide +kernel), hruns, by decide +kernel,
    hscanner, hrequests⟩

end Round
end ChordPad
