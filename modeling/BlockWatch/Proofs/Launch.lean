import BlockWatch.Launch
import BlockWatch.Proofs.Subscriptions
import BlockWatch.Proofs.Watchlist

/-!
# From the command line to the subscriptions

Normative source: SPEC_FULL.md, section 10.4:

    repeatable `--address`, optional `--watchlist` file. At least one address is required.

`Options.Names` are the addresses that options name, as they are spelled: those on the command line,
then those in the watchlist.  `Options.Unwatched` are the reasons why there is no watcher: the first
address of the command line that is none, a watchlist that cannot be loaded, or no address at all.

`Launch.start_by_addresses` is about all options and all files.  A launch fails for these reasons
only and in this order.  Otherwise each address is subscribed once, at its first place and in
canonical spelling, with the watcher and with the cache, and the records name them and their number.
So it makes no difference which source names an address, nor with how many zeros.
-/

set_option autoImplicit false

namespace BlockWatch

/-! ## Subscribing one after the other -/

/-- A watcher and a cache with the same roster both add what is new, and the additions are recorded
in their order. -/
theorem Watcher.subscribeAll_eq (addresses : List String) :
    ∀ (watcher : Watcher) (cache : Cache), cache.subscriptions = watcher.subscriptions →
      ∃ new, (addresses.map Address.canonical).foldl Roster.add watcher.subscriptions =
          watcher.subscriptions ++ new ∧
        watcher.subscribeAll cache addresses =
          (new.map subscribedRecord,
            { watcher with subscriptions := watcher.subscriptions ++ new },
            { cache with subscriptions := watcher.subscriptions ++ new }) := by
  -- Both rosters start the same and stay the same, so an address is new to both or to neither.
  induction addresses with
  | nil =>
      intro watcher cache hagree
      have hcache : { cache with subscriptions := watcher.subscriptions } = cache := by
        rw [← hagree]
      exact ⟨[], (List.append_nil _).symm, by rw [List.append_nil, hcache]; rfl⟩
  | cons address rest ih =>
      intro watcher cache hagree
      rw [List.map_cons, List.foldl_cons, subscribeAll]
      by_cases h : Address.canonical address ∈ watcher.subscriptions
      · obtain ⟨new, hroster, hall⟩ := ih watcher cache hagree
        rw [Roster.add_of_mem h, watcher.subscribe_of_mem cache h]
        exact ⟨new, hroster, by simp only [hall, List.nil_append]⟩
      · have hadd := Roster.add_of_not_mem h
        have hcache : (cache.subscribe (Address.canonical address)).subscriptions =
            watcher.subscriptions ++ [Address.canonical address] := by
          rw [Cache.subscribe, hagree, hadd]
        obtain ⟨new, hroster, hall⟩ := ih
          { watcher with subscriptions := watcher.subscriptions ++ [Address.canonical address] }
          _ hcache
        rw [List.append_assoc, List.singleton_append] at hroster hall
        rw [hadd, watcher.subscribe_of_not_mem cache h, hadd]
        exact ⟨Address.canonical address :: new, hroster, by simp only [hall]; rfl⟩

namespace CommandLine.Options

/-! ## The addresses that are named -/

/-- The addresses of the watchlist that options name; without one there are none. -/
def listed (options : Options) (content : String → Except Watchlist.FileFault (List UInt8)) :
    Except Explanation (List String) :=
  match options.watchlist with
  | none => .ok []
  | some path => Watchlist.load path (content path)

/-- The addresses that options name, as they are spelled: those given, then the lines that count of
the watchlist. -/
def Names (options : Options) (content : String → Except Watchlist.FileFault (List UInt8))
    (addresses : List String) : Prop :=
  match options.watchlist with
  | none => addresses = options.addresses
  | some path => ∃ text, content path = .ok (Text.bytes text) ∧
      addresses = options.addresses ++ Watchlist.texts text.toList

/-- Why options come to no watcher: the first address given that is none, a watchlist that cannot
be loaded, or no address at all. -/
inductive Unwatched (options : Options)
    (content : String → Except Watchlist.FileFault (List UInt8)) : Explanation → Prop
  | invalid {front rest : List String} {address : String}
      (given : options.addresses = front ++ address :: rest)
      (valid : ∀ earlier ∈ front, Address.isValid earlier = true)
      (invalid : Address.isValid address = false) :
      Unwatched options content ⟨"Invalid address: " ++ address, []⟩
  | unlisted {explanation : Explanation}
      (valid : ∀ address ∈ options.addresses, Address.isValid address = true)
      (fault : options.listed content = .error explanation) :
      Unwatched options content (explanation.within "Failed to load watchlist")
  | nothing (given : options.addresses = []) (unlisted : options.watchlist = none) :
      Unwatched options content
        ⟨"No addresses to watch (use --address or --watchlist)", []⟩

variable {options : Options} {content : String → Except Watchlist.FileFault (List UInt8)}

theorem names_of_listed {found : List String} (h : options.listed content = .ok found) :
    ∃ lines, options.Names content (options.addresses ++ lines) ∧
      found = (lines.map Address.canonical).eraseDups ∧
      (found = [] ↔ options.watchlist = none) := by
  unfold listed at h
  unfold Names
  cases hwatchlist : options.watchlist with
  | none =>
      rw [hwatchlist] at h
      obtain rfl := Except.ok.inj h
      exact ⟨[], List.append_nil _, rfl, by simp⟩
  | some path =>
      simp only [hwatchlist] at h
      cases hcontent : content path with
      | error fault => simp [hcontent, Watchlist.load, Except.bind] at h
      | ok bytes =>
          rw [hcontent] at h
          obtain ⟨text, rfl, hsome, -, hfound⟩ := Watchlist.load_eq_ok_iff.mp h
          obtain ⟨line, hline⟩ := List.exists_mem_of_ne_nil _ hsome
          have hne : found ≠ [] :=
            hfound ▸ List.ne_nil_of_mem (List.mem_eraseDups.mpr (List.mem_map_of_mem hline))
          exact ⟨_, ⟨text, hcontent, rfl⟩, hfound, by simp [hne]⟩

/-- Options name one list of addresses. -/
theorem Names.unique {addresses others : List String} (first : options.Names content addresses)
    (second : options.Names content others) : addresses = others := by
  unfold Names at first second
  cases hwatchlist : options.watchlist with
  | none =>
      simp only [hwatchlist] at first second
      exact first.trans second.symm
  | some path =>
    simp only [hwatchlist] at first second
    obtain ⟨text, htext, rfl⟩ := first
    obtain ⟨other, hother, rfl⟩ := second
    have hsame : Text.bytes text = Text.bytes other := Except.ok.inj (htext.symm.trans hother)
    rw [Text.bytes_inj.mp hsame]

theorem firstInvalid?_eq_some_iff {addresses : List String} {address : String} :
    firstInvalid? addresses = some address ↔
      ∃ front rest, addresses = front ++ address :: rest ∧
        (∀ earlier ∈ front, Address.isValid earlier = true) ∧ Address.isValid address = false := by
  simp only [firstInvalid?, List.find?_eq_some_iff_append, Bool.not_eq_true', Bool.not_not]
  constructor
  · rintro ⟨hinvalid, front, rest, hgiven, hvalid⟩
    exact ⟨front, rest, hgiven, hvalid, hinvalid⟩
  · rintro ⟨front, rest, hgiven, hvalid, hinvalid⟩
    exact ⟨hinvalid, front, rest, hgiven, hvalid⟩

theorem firstInvalid?_eq_none_iff {addresses : List String} :
    firstInvalid? addresses = none ↔ ∀ address ∈ addresses, Address.isValid address = true := by
  simp [firstInvalid?]

/-- The addresses of options, by cases on the first invalid one and on the watchlist. -/
theorem watched_eq :
    options.watched content =
      match firstInvalid? options.addresses with
      | some address => .error ⟨"Invalid address: " ++ address, []⟩
      | none =>
          match options.listed content with
          | .error explanation => .error (explanation.within "Failed to load watchlist")
          | .ok found =>
              if (options.addresses ++ found).isEmpty then
                .error ⟨"No addresses to watch (use --address or --watchlist)", []⟩
              else .ok (options.addresses ++ found) :=
  rfl

/-- Finding the addresses fails exactly for the reasons of `Unwatched`. -/
theorem watched_eq_error_iff {explanation : Explanation} :
    options.watched content = .error explanation ↔ options.Unwatched content explanation := by
  rw [watched_eq]
  constructor
  · intro h
    split at h
    · rename_i address hfirst
      obtain ⟨front, rest, hgiven, hvalid, hinvalid⟩ := firstInvalid?_eq_some_iff.mp hfirst
      cases h
      exact .invalid hgiven hvalid hinvalid
    · rename_i hfirst
      have hvalid := firstInvalid?_eq_none_iff.mp hfirst
      split at h
      · rename_i fault hfault
        cases h
        exact .unlisted hvalid hfault
      · rename_i found hfound
        split at h
        · rename_i hempty
          obtain ⟨hgiven, rfl⟩ := List.append_eq_nil_iff.mp (List.isEmpty_iff.mp hempty)
          obtain ⟨_, -, -, hnone⟩ := names_of_listed hfound
          cases h
          exact .nothing hgiven (hnone.mp rfl)
        · cases h
  · rintro (⟨hgiven, hvalid, hinvalid⟩ | ⟨hvalid, hfault⟩ | ⟨hgiven, hnone⟩)
    · rw [firstInvalid?_eq_some_iff.mpr ⟨_, _, hgiven, hvalid, hinvalid⟩]
    · rw [firstInvalid?_eq_none_iff.mpr hvalid, hfault]
    · have hlisted : options.listed content = .ok [] := by
        unfold listed
        rw [hnone]
      have hfirst : firstInvalid? options.addresses = none := by
        rw [hgiven]
        rfl
      rw [hfirst, hlisted, hgiven]
      rfl

theorem not_unwatched {found : List String} (h : options.watched content = .ok found)
    (explanation : Explanation) : ¬ options.Unwatched content explanation := by
  rw [← watched_eq_error_iff, h]
  exact fun hfault => by cases hfault

/-- The addresses found are those given and those of the watchlist; in canonical spelling and
without repetition they are the addresses that the options name. -/
theorem names_of_watched {found : List String} (h : options.watched content = .ok found) :
    ∃ lines addresses, options.listed content = .ok lines ∧ found = options.addresses ++ lines ∧
      options.Names content addresses ∧
      (found.map Address.canonical).eraseDups = (addresses.map Address.canonical).eraseDups := by
  rw [watched_eq] at h
  split at h
  · cases h
  · split at h
    · cases h
    · rename_i listed hlisted
      obtain ⟨lines, hnames, rfl, -⟩ := names_of_listed hlisted
      split at h
      · cases h
      · refine ⟨_, _, hlisted, (Except.ok.inj h).symm, hnames, ?_⟩
        obtain rfl := Except.ok.inj h
        -- The watchlist came without its own repetitions, which the whole list loses anyway.
        have hcanonical : ((lines.map Address.canonical).eraseDups).map Address.canonical =
            (lines.map Address.canonical).eraseDups := by
          refine (List.map_congr_left fun address hmem => ?_).trans (List.map_id _)
          obtain ⟨line, -, rfl⟩ := List.mem_map.mp (List.mem_eraseDups.mp hmem)
          exact Address.canonical_idem line
        rw [List.map_append, hcanonical, Roster.eraseDups_append_eraseDups, ← List.map_append]

end CommandLine.Options

/-! ## Launching -/

namespace Launch

/-- The records of a launch that subscribes a roster: one for each address in its order, and how
many there are. -/
def opening (endpoint : String) (roster : List String) : List Record :=
  [plainRecord "Starting transaction watcher", plainRecord ("RPC URL: " ++ endpoint)] ++
    roster.map Watcher.subscribedRecord ++
    [plainRecord ("Watching " ++ toString roster.length ++ " addresses")]

/-- What a launch comes to that subscribes a roster. -/
def entering (options : CommandLine.Options) (roster : List String) : Launch where
  setup :=
    { settings := options.settings.normalized
      client := { endpoint := options.endpoint }
      watcher := { outlet := .journal, subscriptions := roster }
      cache := { Cache.empty with subscriptions := roster } }
  records := opening options.endpoint roster

variable {options : CommandLine.Options}
  {content : String → Except Watchlist.FileFault (List UInt8)}

theorem setup_eq (settings : Settings) (outlet : Outlet) :
    Setup.new settings outlet =
      if settings.endpoint = "" then .error (.missingField "rpc_endpoint")
      else .ok
        { settings := settings.normalized, client := { endpoint := settings.endpoint },
          watcher := { outlet }, cache := .empty } := by
  have hendpoint : settings.normalized.endpoint = settings.endpoint := rfl
  simp only [Setup.new, Rpc.Client.new, hendpoint, String.isEmpty_iff]
  split <;> rfl

/-- The addresses found are subscribed in canonical spelling, each at its first place. -/
theorem start_eq :
    start options content = options.watched content >>= fun found =>
      if options.endpoint = "" then
        .error ((Failure.missingField "rpc_endpoint").explain.within "Failed to initialize watcher")
      else .ok (entering options ((found.map Address.canonical).eraseDups)) := by
  refine congrArg (options.watched content >>= ·) (funext fun found => ?_)
  have hendpoint : options.settings.endpoint = options.endpoint := rfl
  obtain ⟨new, hroster, hall⟩ :=
    Watcher.subscribeAll_eq found { outlet := .journal } Cache.empty rfl
  have hnew : new = (found.map Address.canonical).eraseDups :=
    hroster.symm.trans (Roster.ofList_eq_eraseDups _)
  rw [setup_eq, hendpoint]
  by_cases h : options.endpoint = ""
  · rw [if_pos h, if_pos h]
  · rw [if_neg h, if_neg h, ← hnew]
    simp only [hall]
    rfl

/-- A launch that comes about has subscribed the addresses that the options name. -/
theorem names_of_start {launch : Launch} (h : start options content = .ok launch) :
    ∃ lines addresses, options.listed content = .ok lines ∧ options.Names content addresses ∧
      ((options.addresses ++ lines).map Address.canonical).eraseDups =
        (addresses.map Address.canonical).eraseDups ∧
      launch = entering options ((addresses.map Address.canonical).eraseDups) := by
  rw [start_eq] at h
  obtain ⟨found, hfound, hlaunch⟩ := bind_eq_ok_iff.mp h
  obtain ⟨lines, addresses, hlisted, rfl, hnames, hroster⟩ :=
    CommandLine.Options.names_of_watched hfound
  refine ⟨lines, addresses, hlisted, hnames, hroster, ?_⟩
  rw [← hroster]
  split at hlaunch
  · cases hlaunch
  · exact (Except.ok.inj hlaunch).symm

/-- If an address of the command line is invalid, the watchlist is not looked at. -/
theorem start_of_invalid {address : String} (given : address ∈ options.addresses)
    (invalid : Address.isValid address = false)
    (other : String → Except Watchlist.FileFault (List UInt8)) :
    start options other = start options content := by
  have hfirst : CommandLine.firstInvalid? options.addresses ≠ none := by
    intro hnone
    have hvalid := CommandLine.Options.firstInvalid?_eq_none_iff.mp hnone address given
    exact absurd (hvalid.symm.trans invalid) (by decide)
  obtain ⟨first, hfirst⟩ := Option.ne_none_iff_exists'.mp hfirst
  rw [start_eq, start_eq, CommandLine.Options.watched_eq, CommandLine.Options.watched_eq, hfirst]

/-- With the address of a node a launch fails for one of three reasons only, and the watchlist is
not looked at where an address of the command line is none.  Otherwise the addresses that the
options name are subscribed with the watcher and the cache, each in canonical spelling and at its
first place, and every one of them is recorded and then their number.  Launches that name the same
addresses in the same order, each source and every spelling aside, come to the same watcher, cache
and records. -/
theorem start_by_addresses (usable : options.endpoint ≠ "") :
    (∀ explanation, start options content = .error explanation ↔
      options.Unwatched content explanation) ∧
    (∀ address ∈ options.addresses, Address.isValid address = false →
      ∀ other, start options other = start options content) ∧
    ((∀ explanation, ¬ options.Unwatched content explanation) →
      ∃ launch lines addresses, start options content = .ok launch ∧
        options.listed content = .ok lines ∧ options.Names content addresses ∧
        launch.setup.watcher.subscriptions =
          ((options.addresses ++ lines).map Address.canonical).eraseDups ∧
        launch.setup.watcher.subscriptions = (addresses.map Address.canonical).eraseDups ∧
        launch.setup.cache.subscriptions = launch.setup.watcher.subscriptions ∧
        launch.records = opening options.endpoint launch.setup.watcher.subscriptions) ∧
    ∀ launch others otherContent other addresses otherAddresses,
      start options content = .ok launch → start others otherContent = .ok other →
      options.Names content addresses → others.Names otherContent otherAddresses →
      addresses.map Address.canonical = otherAddresses.map Address.canonical →
      launch.setup.watcher = other.setup.watcher ∧ launch.setup.cache = other.setup.cache ∧
        (options.endpoint = others.endpoint → launch.records = other.records) := by
  have hfailure : ∀ explanation, start options content = .error explanation ↔
      options.Unwatched content explanation := by
    intro explanation
    rw [start_eq, ← CommandLine.Options.watched_eq_error_iff]
    cases options.watched content <;> simp [bind, Except.bind, usable]
  refine ⟨hfailure, fun _ hgiven hinvalid => start_of_invalid hgiven hinvalid, ?_, ?_⟩
  · intro hnone
    cases hstart : start options content with
    | error explanation => exact absurd ((hfailure explanation).mp hstart) (hnone explanation)
    | ok launch =>
        obtain ⟨lines, addresses, hlisted, hnames, hroster, rfl⟩ := names_of_start hstart
        exact ⟨_, lines, addresses, rfl, hlisted, hnames, hroster.symm, rfl, rfl, rfl⟩
  · intro launch others otherContent other addresses otherAddresses hstart hother hnames hotherNames
      hsame
    obtain ⟨-, named, -, hnamed, -, rfl⟩ := names_of_start hstart
    obtain ⟨-, otherNamed, -, hotherNamed, -, rfl⟩ := names_of_start hother
    rw [hnamed.unique hnames, hotherNamed.unique hotherNames, hsame]
    exact ⟨rfl, rfl, fun hendpoint => congrArg (opening · _) hendpoint⟩

/-- Two addresses on the command line and two in a file, or all four on the command line. -/
theorem start_by_addresses_split :
    let options : CommandLine.Options :=
      { addresses := ["0x01", "0x2"], watchlist := some "watchlist" }
    let others : CommandLine.Options := { addresses := ["0x1", "0x02", "0x01", "0x3"] }
    let content : String → Except Watchlist.FileFault (List UInt8) := fun _ =>
      .ok (Text.bytes "0x1\n# again\n0x03\n")
    options.endpoint ≠ "" ∧
      ∃ launch other, start options content = .ok launch ∧ start others content = .ok other ∧
        launch.setup.watcher.subscriptions = ["0x1", "0x2", "0x3"] ∧
        launch.setup.cache.subscriptions = ["0x1", "0x2", "0x3"] ∧
        launch.setup.watcher = other.setup.watcher ∧ launch.setup.cache = other.setup.cache := by
  intro options others content
  obtain ⟨-, -, hlaunch, hsame⟩ :=
    @start_by_addresses options content (by decide)
  obtain ⟨-, -, hotherLaunch, -⟩ :=
    @start_by_addresses others content (by decide)
  have htexts : Watchlist.texts "0x1\n# again\n0x03\n".toList = ["0x1", "0x03"] := by cbv
  have hload : Watchlist.load "watchlist" (content "watchlist") = .ok ["0x1", "0x3"] := by
    refine Watchlist.load_eq_ok_iff.mpr ⟨_, rfl, ?_⟩
    rw [htexts]
    decide
  have hwatched : options.watched content = .ok ["0x01", "0x2", "0x1", "0x3"] := by
    have hfirst : CommandLine.firstInvalid? options.addresses = none := by decide
    have hlisted : options.listed content = .ok ["0x1", "0x3"] := hload
    rw [CommandLine.Options.watched_eq, hfirst, hlisted]
    rfl
  have hotherWatched : others.watched content = .ok ["0x1", "0x02", "0x01", "0x3"] := by decide
  obtain ⟨launch, -, addresses, hstart, -, hnames, -, hroster, hcache, -⟩ :=
    hlaunch (CommandLine.Options.not_unwatched hwatched)
  obtain ⟨other, -, otherAddresses, hotherStart, -, hotherNames, -⟩ :=
    hotherLaunch (CommandLine.Options.not_unwatched hotherWatched)
  have haddresses : options.Names content ["0x01", "0x2", "0x1", "0x03"] :=
    ⟨_, rfl, by rw [htexts]; rfl⟩
  have hotherAddresses : others.Names content ["0x1", "0x02", "0x01", "0x3"] := rfl
  have hall := hsame launch others content other _ _ hstart hotherStart haddresses hotherAddresses
    (by decide)
  rw [hnames.unique haddresses] at hroster
  rw [hroster] at hcache
  refine ⟨by decide, launch, other, hstart, hotherStart, ?_, ?_, hall.1, hall.2.1⟩
  · rw [hroster]
    decide
  · rw [hcache]
    decide

end Launch

end BlockWatch
