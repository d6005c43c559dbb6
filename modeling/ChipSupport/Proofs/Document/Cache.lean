import ChipSupport.Proofs.Data.Keys
import ChipSupport.Proofs.Document.Peripheral

/-!
# Peripherals that are read once

A document keeps the peripherals that it has read.  What it keeps under a name is what reading that
name gives, and a fault keeps nothing, so that no question gets another answer than the first
question to a document would get.  A list of all peripherals leaves out those that are broken.

## Main definitions

* `Document.Call`, `Document.Answer` — questions about peripherals, and what they get.
* `Document.answers` — the answers to questions that are asked one after the other.
* `Document.Cache.Sound` — caches that hold what reading gives.
* `Document.readable` — reading peripherals one by one, without a cache.

## Main results

* `Document.peripheral_congr` — names of the same entry name the same peripheral.
* `Document.sound_ask`, `Document.ask_eq_fresh` — a question keeps the cache sound, and a sound
  cache does not show.
* `Document.readable_eq_ok_iff` — what is left of a list of peripherals.
* `Document.cache_transparent` — **no question shows what was asked before, and broken peripherals
  do not spoil the others.**
-/

namespace ChipSupport

namespace Node

/-- A node is found under every name of the same entry. -/
theorem find?_congr {a b : Data} (h : a.sameKey b = true) (key : String) (nodes : List Data) :
    find? key a nodes = find? key b nodes := by
  induction nodes with
  | nil => rfl
  | cons node rest ih =>
    rw [find?, find?]
    refine bind_congr fun d => ?_
    rw [Data.sameKey_congr h d, ih]

theorem named?_congr {a b : Data} (h : a.sameKey b = true) (nodes : List Data) :
    named? a nodes = named? b nodes := find?_congr h "name" nodes

end Node

namespace Document

variable {doc : Document} {cache : Cache}

/-- Names of the same entry name the same peripheral. -/
theorem peripheral_congr {a b : Data} (h : a.sameKey b = true) {p : Peripheral}
    (hp : doc.peripheral a = .ok p) : doc.peripheral b = .ok p := by
  rw [peripheral, Steps.bind_eq_ok_iff] at hp ⊢
  obtain ⟨⟨node, module_⟩, hparts, hread⟩ := hp
  obtain ⟨hkey, nodes, hnodes, hdevice, hmodule⟩ := peripheralParts_eq_ok_iff.mp hparts
  rw [Data.canBeKey_congr h] at hkey
  rw [Node.named?_congr h] at hdevice hmodule
  exact ⟨_, peripheralParts_eq_ok_iff.mpr ⟨hkey, nodes, hnodes, hdevice, hmodule⟩, hread⟩

/-! ### Reading without a cache -/

/-- The peripherals of names, each of which is read on its own.  A document fault leaves a
peripheral out, and any other fault ends the reading. -/
def readable (doc : Document) : List Data → Except Fault (List Peripheral)
  | [] => .ok []
  | name :: rest =>
    match doc.peripheral name with
    | .ok p => (readable doc rest).map (p :: ·)
    | .error f => if f.isDocumentFault then readable doc rest else .error f

/-- Whether all that can be wrong with a peripheral is a fault of the document. -/
def OnlyDocumentFaults (doc : Document) (name : Data) : Prop :=
  ∀ f, doc.peripheral name = .error f → f.isDocumentFault = true

/-- A list of peripherals is read exactly if all that is wrong are faults of the document, and then
the peripherals without a fault are left. -/
theorem readable_eq_ok_iff {names : List Data} {ps : List Peripheral} :
    readable doc names = .ok ps ↔
      (∀ name ∈ names, OnlyDocumentFaults doc name) ∧
        ps = names.filterMap fun name => (doc.peripheral name).toOption := by
  induction names generalizing ps with
  | nil => simp [readable, eq_comm]
  | cons name rest ih =>
    rw [readable, List.forall_mem_cons]
    cases hread : doc.peripheral name with
    | ok p =>
      have hfault : OnlyDocumentFaults doc name := by
        intro f hf
        rw [hread] at hf
        cases hf
      rw [List.filterMap_cons_some (by rw [hread]; rfl), and_iff_right hfault]
      dsimp only
      rw [Steps.map_eq_ok_iff]
      constructor
      · rintro ⟨qs, hqs, rfl⟩
        obtain ⟨hrest, rfl⟩ := ih.mp hqs
        exact ⟨hrest, rfl⟩
      · rintro ⟨hrest, rfl⟩
        exact ⟨_, ih.mpr ⟨hrest, rfl⟩, rfl⟩
    | error f =>
      have hfault : OnlyDocumentFaults doc name ↔ f.isDocumentFault = true := by
        rw [OnlyDocumentFaults, hread]
        simp
      rw [List.filterMap_cons_none (by rw [hread]; rfl), hfault]
      dsimp only
      split
      · next hdocument => rw [ih, and_iff_right hdocument]
      · next hother =>
        refine iff_of_false ?_ fun h => hother h.1.1
        rintro ⟨⟩

/-! ### Questions -/

/-- A question to a document about its peripherals. -/
inductive Call where
  /-- The peripheral of a name. -/
  | peripheral (name : Data)
  /-- All peripherals that have a description. -/
  | peripherals

/-- What a question gets: what it asks for, or a fault. -/
inductive Answer where
  /-- A peripheral. -/
  | peripheral (read : Except Fault Peripheral)
  /-- A list of peripherals. -/
  | peripherals (read : Except Fault (List Peripheral))

/-- The answer to a question, and the cache afterwards. -/
def ask (doc : Document) (cache : Cache) : Call → Answer × Cache
  | .peripheral name =>
    let (read, cache, _) := Cache.peripheral doc cache name
    (.peripheral read, cache)
  | .peripherals =>
    let (read, cache, _) := Cache.peripherals doc cache
    (.peripherals read, cache)

/-- The answers to questions that are asked one after the other. -/
def answers (doc : Document) : Cache → List Call → List Answer
  | _, [] => []
  | cache, call :: rest => (ask doc cache call).1 :: answers doc (ask doc cache call).2 rest

/-- A cache that holds what reading gives. -/
def Cache.Sound (doc : Document) (cache : Cache) : Prop :=
  ∀ entry ∈ cache, doc.peripheral entry.1 = .ok entry.2

theorem Cache.Sound.nil : Cache.Sound doc [] := List.forall_mem_nil _

/-- A peripheral is the one that reading gives, and it is kept if there is one. -/
theorem Cache.Sound.peripheral (h : cache.Sound doc) (name : Data) :
    (Cache.peripheral doc cache name).1 = doc.peripheral name ∧
      (Cache.peripheral doc cache name).2.1.Sound doc := by
  unfold Cache.peripheral
  split
  · next p hfound =>
    obtain ⟨⟨key, q⟩, hentry, rfl⟩ := Option.map_eq_some_iff.mp hfound
    have hsame : key.sameKey name = true := by simpa using List.find?_some hentry
    have hread : doc.peripheral key = .ok q := h _ (List.mem_of_find?_eq_some hentry)
    exact ⟨(peripheral_congr hsame hread).symm, h⟩
  · dsimp only
    split
    · next p hread => exact ⟨hread.symm, List.forall_mem_cons.mpr ⟨hread, h⟩⟩
    · next f hread => exact ⟨hread.symm, h⟩

/-- A list of peripherals is read as if each was read on its own. -/
theorem Cache.Sound.peripheralsOf (h : cache.Sound doc) (names : List Data) :
    (Cache.peripheralsOf doc cache names).1 = readable doc names ∧
      (Cache.peripheralsOf doc cache names).2.1.Sound doc := by
  induction names generalizing cache with
  | nil => exact ⟨rfl, h⟩
  | cons name rest ih =>
    obtain ⟨hread, hsound⟩ := h.peripheral name
    rw [Cache.peripheralsOf, readable, ← hread]
    rcases hstep : Cache.peripheral doc cache name with ⟨f | p, cache', notes⟩
    all_goals rw [hstep] at hsound
    · dsimp only
      split
      · exact ih hsound
      · exact ⟨rfl, hsound⟩
    · exact ⟨congrArg (Except.map (p :: ·)) (ih hsound).1, (ih hsound).2⟩

theorem Cache.Sound.peripherals (h : cache.Sound doc) :
    (Cache.peripherals doc cache).1 = doc.peripheralNames.bind doc.readable ∧
      (Cache.peripherals doc cache).2.1.Sound doc := by
  unfold Cache.peripherals
  split
  · next names hnames =>
    rw [hnames]
    exact h.peripheralsOf names
  · next f hnames =>
    rw [hnames]
    exact ⟨rfl, h⟩

/-- A question keeps the cache sound. -/
theorem sound_ask (h : cache.Sound doc) (call : Call) : (ask doc cache call).2.Sound doc := by
  cases call with
  | peripheral name => exact (h.peripheral name).2
  | peripherals => exact h.peripherals.2

/-- A sound cache does not show in an answer. -/
theorem ask_eq_fresh (h : cache.Sound doc) (call : Call) :
    (ask doc cache call).1 = (ask doc [] call).1 := by
  cases call with
  | peripheral name =>
    exact congrArg Answer.peripheral
      ((h.peripheral name).1.trans (Cache.Sound.nil.peripheral name).1.symm)
  | peripherals =>
    exact congrArg Answer.peripherals (h.peripherals.1.trans Cache.Sound.nil.peripherals.1.symm)

/-- Questions that are asked one after the other are answered as each one on its own. -/
theorem answers_eq_map (h : cache.Sound doc) (calls : List Call) :
    answers doc cache calls = calls.map fun call => (ask doc [] call).1 := by
  induction calls generalizing cache with
  | nil => rfl
  | cons call rest ih => rw [answers, List.map_cons, ask_eq_fresh h, ih (sound_ask h call)]

/-- **No question shows what was asked before, and broken peripherals do not spoil the others.**
The answers to questions in any order are those that each question gets from a document that was
asked nothing yet.  A list of peripherals is given exactly if only faults of the document keep
peripherals from being read, and it has the others in the order of their names. -/
theorem cache_transparent (doc : Document) (calls : List Call) :
    answers doc [] calls = calls.map (fun call => (ask doc [] call).1) ∧
    (∀ name, (ask doc [] (.peripheral name)).1 = .peripheral (doc.peripheral name)) ∧
    ∀ names, doc.peripheralNames = .ok names → ∀ ps,
      ((ask doc [] .peripherals).1 = .peripherals (.ok ps) ↔
        (∀ name ∈ names, ∀ f, doc.peripheral name = .error f → f.isDocumentFault = true) ∧
          ps = names.filterMap fun name => (doc.peripheral name).toOption) := by
  have hfresh : Cache.Sound doc [] := .nil
  refine ⟨answers_eq_map hfresh calls,
    fun name => congrArg Answer.peripheral (hfresh.peripheral name).1, ?_⟩
  intro names hnames ps
  have hread : (ask doc [] .peripherals).1 = .peripherals (readable doc names) := by
    refine congrArg Answer.peripherals (hfresh.peripherals.1.trans ?_)
    rw [hnames]
    rfl
  rw [hread, Answer.peripherals.injEq]
  exact readable_eq_ok_iff

/-! ### A document with broken peripherals -/

/-- A module with a field whose values are not listed. -/
def brokenModule : Data :=
  .table [(.text "@name", .text "TC"),
    (.text "register-group", .table [(.text "@name", .text "TC"),
      (.text "register", .table [(.text "@name", .text "CTRLA"),
        (.text "bitfield", .table [(.text "@name", .text "MODE"),
          (.text "@values", .text "TC_MODE")])])])]

/-- A document with a converter, a timer whose module is broken, and an interface without a
module. -/
def mixedDocument : Document :=
  { source := "mixed.atdf"
    deviceNode := .table [(.text "peripherals", .table [(.text "module",
      .list (["ADC", "TC", "SPI"].map fun name => .table [(.text "@name", .text name)]))])]
    modulesNode := .table [(.text "module",
      .list [.table [(.text "@name", .text "ADC")], brokenModule])] }

/-- The names of the peripherals. -/
def mixedNames : List Data := [.text "ADC", .text "TC", .text "SPI"]

/-- The converter as it is read. -/
def mixedConverter : Peripheral := { name := "ADC", instances := some [] }

theorem peripheral_mixed_converter :
    mixedDocument.peripheral (.text "ADC") = .ok mixedConverter := by cbv

theorem peripheral_mixed_timer :
    mixedDocument.peripheral (.text "TC")
      = .error (.valueGroupMissing "TC_MODE" "MODE" "TC") := by cbv

theorem peripheral_mixed_interface :
    mixedDocument.peripheral (.text "SPI") = .error (.moduleMissing "mixed.atdf" "SPI") := by cbv

theorem onlyDocumentFaults_mixed : ∀ name ∈ mixedNames, OnlyDocumentFaults mixedDocument name := by
  intro name hname f hf
  rw [mixedNames, List.mem_cons, List.mem_cons, List.mem_singleton] at hname
  rcases hname with rfl | rfl | rfl
  · rw [peripheral_mixed_converter] at hf
    cases hf
  · rw [peripheral_mixed_timer] at hf
    cases hf
    rfl
  · rw [peripheral_mixed_interface] at hf
    cases hf
    rfl

/-- The timer fails each time that it is asked for, and the converter is listed before and after. -/
theorem cache_transparent_mixed :
    mixedDocument.peripheralNames = .ok mixedNames ∧
    (∀ name ∈ mixedNames, OnlyDocumentFaults mixedDocument name) ∧
    answers mixedDocument [] [.peripheral (.text "TC"), .peripherals, .peripheral (.text "ADC"),
        .peripheral (.text "TC"), .peripherals]
      = [.peripheral (.error (.valueGroupMissing "TC_MODE" "MODE" "TC")),
        .peripherals (.ok [mixedConverter]), .peripheral (.ok mixedConverter),
        .peripheral (.error (.valueGroupMissing "TC_MODE" "MODE" "TC")),
        .peripherals (.ok [mixedConverter])] := by
  have hnames : mixedDocument.peripheralNames = .ok mixedNames := by cbv
  obtain ⟨hanswers, hone, hall⟩ := cache_transparent mixedDocument
    [.peripheral (.text "TC"), .peripherals, .peripheral (.text "ADC"), .peripheral (.text "TC"),
      .peripherals]
  have hlist : (ask mixedDocument [] .peripherals).1 = .peripherals (.ok [mixedConverter]) := by
    refine (hall mixedNames hnames _).mpr ⟨onlyDocumentFaults_mixed, ?_⟩
    rw [mixedNames, List.filterMap_cons_some (by rw [peripheral_mixed_converter]; rfl),
      List.filterMap_cons_none (by rw [peripheral_mixed_timer]; rfl),
      List.filterMap_cons_none (by rw [peripheral_mixed_interface]; rfl), List.filterMap_nil]
  refine ⟨hnames, onlyDocumentFaults_mixed, ?_⟩
  rw [hanswers]
  simp only [List.map_cons, List.map_nil, hone, hlist, peripheral_mixed_converter,
    peripheral_mixed_timer]

end Document

end ChipSupport
