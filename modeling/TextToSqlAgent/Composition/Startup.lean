import TextToSqlAgent.Composition.Resources

/-!
# What startup finds out

A pool that opens has proved as many connections as it begins with, and no more. An
empty catalog is refused once: it is cached before it is looked at.
-/

namespace Resources

open Exceptions Python Dsn Patterns Catalog Runs Fallible

variable {words : Words} {repr : String → String} {settings : ResourceSettings}

/-! ## A pool that opens -/

/-- The attempt gives a session that is accepted and can be pointed at the schema. -/
def admits : Dial → Bool
  | .error _ => false
  | .ok session => (assertReadOnly session).isOk && session.setConfig.isOk

theorem isOk_iff {ε α : Type} {outcome : Except ε α} :
    outcome.isOk = true ↔ ∃ value, outcome = .ok value := by
  cases outcome <;> simp [Except.isOk, Except.toBool]

theorem admits_iff {session : Session} :
    admits (.ok session) = true ↔ ReadOnly session ∧ session.setConfig = .ok () := by
  rw [admits, Bool.and_eq_true, isOk_iff, assertReadOnly_iff, isOk_iff]
  exact and_congr_right fun _ => ⟨fun ⟨_, set⟩ => set, fun set => ⟨(), set⟩⟩

theorem prepare_ok_iff {conn : Conn} :
    (∃ ready, prepare settings conn = .ok ready) ↔ admits (.ok conn.session) = true := by
  rw [admits_iff]
  constructor
  · rintro ⟨ready, done⟩
    obtain ⟨barrier, accepted, rest⟩ := bind_ok_iff.mp done
    obtain ⟨u, set, -⟩ := bind_ok_iff.mp rest
    exact ⟨(assertReadOnly_iff _).mp ⟨barrier, accepted⟩, asked_ok_iff.mp set⟩
  · rintro ⟨readOnly, set⟩
    obtain ⟨barrier, accepted⟩ := (assertReadOnly_iff _).mpr readOnly
    refine ⟨conn.scoped settings, bind_ok_iff.mpr ⟨barrier, accepted, ?_⟩⟩
    exact bind_ok_iff.mpr ⟨(), asked_ok_iff.mpr set, rfl⟩

theorem length_grow (dial : Dial) (idle : List Nat) (conns : Conns) :
    (grow words settings dial idle conns).1.length =
      idle.length + if admits dial then 1 else 0 := by
  cases dial with
  | error text => rfl
  | ok session =>
    have prepared : (∃ ready, prepare settings (pooled words settings session) = .ok ready) ↔
        admits (.ok session) = true := prepare_ok_iff
    cases done : prepare settings (pooled words settings session) with
    | error exc =>
      have refused : admits (.ok session) ≠ true := fun accepted => by
        obtain ⟨ready, same⟩ := prepared.mpr accepted
        rw [done] at same
        cases same
      rw [if_neg refused]
      simp only [grow, takeIn, done, Nat.add_zero]
    | ok ready =>
      rw [if_pos (prepared.mp ⟨ready, done⟩)]
      simp only [grow, takeIn, done, List.length_append, List.length_singleton]

/-- A pool that fills has what was admitted, up to what it begins with. -/
theorem length_fill (dials : List Dial) {idle : List Nat} (conns : Conns)
    (few : idle.length ≤ settings.apiPoolMinSize) :
    (fill words settings dials idle conns).1.length =
      min settings.apiPoolMinSize (idle.length + dials.countP admits) := by
  induction dials generalizing idle conns with
  | nil => exact (Nat.min_eq_right few).symm
  | cons dial dials ih =>
    rw [fill, List.countP_cons]
    split
    · dsimp only
      omega
    · have longer : (grow words settings dial idle conns).1.length =
          idle.length + if admits dial then 1 else 0 := length_grow dial idle conns
      split at longer
      · rename_i accepted
        rw [ih _ (by omega), longer, if_pos accepted]
        omega
      · rename_i refused
        rw [ih _ (by omega), longer, if_neg refused]
        omega

/-- A catalog that is cached and empty was refused, and each that was given is judged by
what was refused before. -/
structure Remembers (repr : String → String) (settings : ResourceSettings) (s : State) : Prop where
  cached : .raised .catalog (noCatalogRows repr settings) ∈ s.replies ↔
    ∃ catalog, s.catalog = some catalog ∧ catalog.isEmpty = true
  served : ∀ after catalog before, s.replies = after ++ .catalog catalog :: before →
    (catalog.isEmpty = true ↔ .raised .catalog (noCatalogRows repr settings) ∈ before)

/-- A reply that neither gives a catalog nor refuses an empty one. -/
def Other (repr : String → String) (settings : ResourceSettings) (r : Reply) : Prop :=
  (∀ catalog, r ≠ .catalog catalog) ∧ r ≠ .raised .catalog (noCatalogRows repr settings)

theorem Remembers.reply {s t : State} {r : Reply} (remembers : Remembers repr settings s)
    (same : t.catalog = s.catalog) (replies : t.replies = r :: s.replies)
    (other : Other repr settings r) : Remembers repr settings t := by
  constructor
  · rw [same, replies, List.mem_cons]
    exact (or_iff_right other.2.symm).trans remembers.cached
  · intro after catalog before split
    rw [replies] at split
    cases after with
    | nil => exact absurd (List.cons.inj split).1 (other.1 catalog)
    | cons first after => exact remembers.served after catalog before (List.cons.inj split).2

/-- A reply that gives what is cached. -/
theorem Remembers.serve {s t : State} {catalog : SchemaCatalog}
    (remembers : Remembers repr settings s) (same : t.catalog = s.catalog)
    (cached : s.catalog = some catalog) (replies : t.replies = .catalog catalog :: s.replies) :
    Remembers repr settings t := by
  have refused : .raised .catalog (noCatalogRows repr settings) ∈ s.replies ↔
      catalog.isEmpty = true := by
    rw [remembers.cached, cached]
    simp
  constructor
  · rw [same, replies, List.mem_cons]
    exact (or_iff_right (by simp)).trans remembers.cached
  · intro after given before split
    rw [replies] at split
    cases after with
    | nil =>
      obtain ⟨first, rfl⟩ := List.cons.inj split
      obtain rfl := Reply.catalog.inj first
      exact refused.symm
    | cons first after => exact remembers.served after given before (List.cons.inj split).2

theorem owner_frame (dial : Dial) (s : State) :
    (accessOwner words settings dial s).2.catalog = s.catalog ∧
      (accessOwner words settings dial s).2.replies = s.replies := by
  rw [accessOwner]
  split
  · exact ⟨rfl, rfl⟩
  · split <;> exact ⟨rfl, rfl⟩

theorem readonly_frame (dial : Dial) (s : State) :
    (accessReadonly words settings dial s).2.catalog = s.catalog ∧
      (accessReadonly words settings dial s).2.replies = s.replies := by
  rw [accessReadonly]
  split
  · exact ⟨rfl, rfl⟩
  · split
    · exact ⟨rfl, rfl⟩
    · split <;> exact ⟨rfl, rfl⟩

theorem pool_frame (dials : List Dial) (text : String) (s : State) :
    (accessPool words settings dials text s).2.catalog = s.catalog ∧
      (accessPool words settings dials text s).2.replies = s.replies := by
  rw [accessPool]
  split
  · exact ⟨rfl, rfl⟩
  · dsimp only
    split <;> exact ⟨rfl, rfl⟩

theorem retriever_frame (embedder : Except String Unit) (dial : Dial) (s : State) :
    (accessRetriever words settings embedder dial s).2.catalog = s.catalog ∧
      (accessRetriever words settings embedder dial s).2.replies = s.replies := by
  have owner : (accessOwner words settings dial s).2.catalog = s.catalog ∧
      (accessOwner words settings dial s).2.replies = s.replies := owner_frame dial s
  rw [accessRetriever]
  split
  · exact ⟨rfl, rfl⟩
  · split
    · exact ⟨rfl, rfl⟩
    · split <;> rename_i done <;> rw [done] at owner <;> exact owner

/-- What another member answers. -/
theorem Remembers.given {α : Type} {member : Member} {reply : α → Reply} {s : State}
    {outcome : Except Raised α × State} (remembers : Remembers repr settings s)
    (frame : outcome.2.catalog = s.catalog ∧ outcome.2.replies = s.replies)
    (apart : member ≠ .catalog) (other : ∀ value, Other repr settings (reply value)) :
    Remembers repr settings (given member reply outcome) := by
  obtain ⟨result, t⟩ := outcome
  obtain ⟨catalog, replies⟩ := frame
  cases result with
  | error exc =>
    refine remembers.reply catalog (congrArg (Reply.raised member exc :: ·) replies) ⟨?_, ?_⟩
    · exact fun catalog same => by cases same
    · exact fun same => apart (Reply.raised.inj same).1
  | ok value => exact remembers.reply catalog (congrArg (reply value :: ·) replies) (other value)

/-- No failure to connect is taken for an empty catalog. -/
theorem connect_ne_noCatalogRows (url : Option String) (dial : Dial) :
    connect words settings url "DATABASE_URL" dial ≠ .error (noCatalogRows repr settings) := by
  intro same
  have first (message : String) (this : configuration message = noCatalogRows repr settings) :
      message.toList.head? = some 'n' := by
    rw [configuration, noCatalogRows, configuration] at this
    have text := congrArg DomainError.message (Raised.domain.inj this)
    dsimp only at text
    rw [text]
    simp
  cases url with
  | none => exact absurd (first _ (Except.error.inj same)) (by decide)
  | some url =>
    cases dial with
    | error text =>
      have begins := first _ (Except.error.inj same)
      simp at begins
    | ok session => cases same

theorem asked_ne_noCatalogRows {α : Type} (answer : Except String α) :
    asked answer ≠ .error (noCatalogRows repr settings) := by
  cases answer <;> intro same <;> cases same

theorem other_of_ne {exc : Raised} (apart : exc ≠ noCatalogRows repr settings) :
    Other repr settings (.raised .catalog exc) :=
  ⟨fun _ same => Reply.noConfusion same, fun same => apart (Reply.raised.inj same).2⟩

theorem accessOwner_ne_noCatalogRows {dial : Dial} {s : State} {exc : Raised}
    (failed : (accessOwner words settings dial s).1 = .error exc) :
    exc ≠ noCatalogRows repr settings := by
  rw [accessOwner] at failed
  split at failed
  · cases failed
  · split at failed
    · rename_i refused
      rintro rfl
      obtain rfl := Except.error.inj failed
      exact connect_ne_noCatalogRows _ _ refused
    · cases failed

theorem remembers_catalog {s : State} (remembers : Remembers repr settings s) (dial : Dial)
    (loaded : Except String SchemaCatalog) : Remembers repr settings
      (given .catalog .catalog (accessCatalog words repr settings dial loaded s)) := by
  rw [accessCatalog]
  split
  · rename_i catalog cached
    exact remembers.serve rfl cached rfl
  · rename_i uncached
    have frame : (accessOwner words settings dial s).2.catalog = s.catalog ∧
      (accessOwner words settings dial s).2.replies = s.replies := owner_frame dial s
    have apart (exc : Raised) : (accessOwner words settings dial s).1 = .error exc →
      exc ≠ noCatalogRows repr settings := accessOwner_ne_noCatalogRows
    generalize accessOwner words settings dial s = outcome at frame apart ⊢
    obtain ⟨result, t⟩ := outcome
    obtain ⟨catalog, replies⟩ := frame
    cases result with
    | error exc =>
      exact remembers.reply catalog (congrArg (_ :: ·) replies) (other_of_ne (apart exc rfl))
    | ok id =>
      dsimp only
      cases read : asked loaded with
      | error exc =>
        refine remembers.reply catalog (congrArg (_ :: ·) replies) (other_of_ne ?_)
        rintro rfl
        exact asked_ne_noCatalogRows loaded read
      | ok fresh =>
        dsimp only
        have unrefused : .raised .catalog (noCatalogRows repr settings) ∉ s.replies := by
          rw [remembers.cached, uncached]
          simp
        split
        · rename_i empty
          constructor
          · exact iff_of_true List.mem_cons_self ⟨fresh, rfl, empty⟩
          · intro after given before split
            cases after with
            | nil => cases (List.cons.inj split).1
            | cons first after =>
              exact remembers.served after given before (replies ▸ (List.cons.inj split).2)
        · rename_i some_
          constructor
          · refine iff_of_false ?_ ?_
            · intro listed
              rcases List.mem_cons.mp listed with new | before
              · cases new
              · exact unrefused (replies ▸ before)
            · rintro ⟨catalog, same, empty⟩
              obtain rfl : fresh = catalog := Option.some.inj same
              exact some_ empty
          · intro after given before split
            cases after with
            | nil =>
              obtain ⟨first, rfl⟩ := List.cons.inj split
              obtain rfl := Reply.catalog.inj first
              exact iff_of_false some_ (replies ▸ unrefused)
            | cons first after =>
              exact remembers.served after given before (replies ▸ (List.cons.inj split).2)

theorem stepPool_frame {s t : State} {pool : Pool} {access : Access}
    (taken : stepPool words settings pool s access = some t) : t.catalog = s.catalog ∧
      (t.replies = s.replies ∨ ∃ id, t.replies = .connection .readonlyPool id :: s.replies) := by
  cases access with
  | grow dial =>
    simp only [stepPool] at taken
    split_ifs at taken
    obtain rfl := Option.some.inj taken
    exact ⟨rfl, Or.inl rfl⟩
  | lend =>
    simp only [stepPool] at taken
    split at taken
    · cases taken
    · obtain rfl := Option.some.inj taken
      exact ⟨rfl, Or.inr ⟨_, rfl⟩⟩
  | giveBack id broken =>
    simp only [stepPool] at taken
    split_ifs at taken <;> obtain rfl := Option.some.inj taken <;> exact ⟨rfl, Or.inl rfl⟩
  | expire id =>
    simp only [stepPool] at taken
    split_ifs at taken
    obtain rfl := Option.some.inj taken
    exact ⟨rfl, Or.inl rfl⟩
  | owner dial => cases taken
  | readonly dial => cases taken
  | readonlyPool dials text => cases taken
  | catalog dial loaded => cases taken
  | retriever embedder dial => cases taken
  | close => cases taken

theorem close_frame (s : State) :
    (closeResources s).catalog = s.catalog ∧ (closeResources s).replies = s.replies := by
  rw [closeResources]
  split <;> exact ⟨rfl, rfl⟩

theorem remembers_step {s t : State} {access : Access} (remembers : Remembers repr settings s)
    (taken : step words repr settings s access = some t) : Remembers repr settings t := by
  have pools (taken : (s.pool.bind fun pool => stepPool words settings pool s access) = some t) :
      Remembers repr settings t := by
    obtain ⟨pool, -, taken⟩ := Option.bind_eq_some_iff.mp taken
    obtain ⟨catalog, replies | ⟨id, replies⟩⟩ := stepPool_frame taken
    · constructor
      · rw [catalog, replies]
        exact remembers.cached
      · rw [replies]
        exact remembers.served
    · exact remembers.reply catalog replies ⟨by simp, by simp⟩
  cases access with
  | owner dial =>
    obtain rfl := Option.some.inj taken
    exact remembers.given (owner_frame dial s) (by decide) fun value => ⟨by simp, by simp⟩
  | readonly dial =>
    obtain rfl := Option.some.inj taken
    exact remembers.given (readonly_frame dial s) (by decide) fun value => ⟨by simp, by simp⟩
  | readonlyPool dials text =>
    obtain rfl := Option.some.inj taken
    exact remembers.given (pool_frame dials text s) (by decide) fun value => ⟨by simp, by simp⟩
  | retriever embedder dial =>
    obtain rfl := Option.some.inj taken
    exact remembers.given (retriever_frame embedder dial s) (by decide)
      fun value => ⟨by simp, by simp⟩
  | catalog dial loaded =>
    obtain rfl := Option.some.inj taken
    exact remembers_catalog remembers dial loaded
  | close =>
    obtain rfl := Option.some.inj taken
    obtain ⟨catalog, replies⟩ := close_frame s
    constructor
    · rw [catalog, replies]
      exact remembers.cached
    · rw [replies]
      exact remembers.served
  | grow dial => exact pools taken
  | lend => exact pools taken
  | giveBack id broken => exact pools taken
  | expire id => exact pools taken

/-- In every run, a catalog that is given is empty exactly where an access before it was
refused for that: the refusal does not last. -/
theorem empty_catalog_iff {s : State} {accesses : List Access}
    (reached : run (step words repr settings) {} accesses = some s) {after before : List Reply}
    {catalog : SchemaCatalog} (given : s.replies = after ++ .catalog catalog :: before) :
    catalog.isEmpty = true ↔ .raised .catalog (noCatalogRows repr settings) ∈ before := by
  have fresh : Remembers repr settings {} := ⟨by simp, by simp⟩
  have remembers := invariant (Remembers repr settings)
    (fun s access t remembers taken => remembers_step remembers taken) fresh reached
  exact remembers.served after catalog before given

theorem empty_catalog_iff_reader : ∃ s, run (step plainWords id readerSettings) {}
      [.catalog (.ok readerSession) (.ok ⟨[]⟩), .catalog (.error "") (.error "")] = some s ∧
    .raised .catalog (noCatalogRows id readerSettings) ∈ s.replies.tail := by
  obtain ⟨s, reached, given⟩ : ∃ s, run (step plainWords id readerSettings) {}
      [.catalog (.ok readerSession) (.ok ⟨[]⟩), .catalog (.error "") (.error "")] = some s ∧
      s.replies = [] ++ .catalog ⟨[]⟩ :: s.replies.tail := ⟨_, rfl, rfl⟩
  exact ⟨s, reached, (empty_catalog_iff reached given).mp rfl⟩

end Resources
