import CompletionServer.Proofs.Config.Loading

/-!
# Accepted configurations

What a configuration is known to be once it was accepted: no two of its providers have one name, and
all patterns of its filters compile. The first lets the providers be told apart, the second lets
every document with a usable URI be selected or not.
-/

namespace CompletionServer

/-- The pattern of the filter compiles, if there is one. -/
def Filter.Compiles (f : Filter) : Prop :=
  ∀ pattern, f.pattern = some pattern → ∃ e, Glob.compile pattern.toList = .ok e

/-- A configuration whose providers have distinct names and filters with patterns that compile. -/
structure Config.Accepted (c : Config) : Prop where
  distinct : (c.providers.map ProviderConfig.name).Nodup
  compiles : ∀ p ∈ c.providers, ∀ f ∈ p.selector, f.Compiles

namespace Config

/-! ## Reading -/

theorem compiles_of_parseFilter {provider v : Value} {f : Filter}
    (h : parseFilter provider v = .ok f) : f.Compiles := by
  obtain ⟨fields, -, hread⟩ := exists_of_parseFilter h
  intro pattern hpattern
  rcases exists_of_parsePattern hread with ⟨-, hnone⟩ | ⟨found, e, -, hfound, he⟩
  · cases hpattern.symm.trans hnone
  · cases hpattern.symm.trans hfound
    exact ⟨e, he⟩

theorem compiles_of_parseSelector {provider v : Value} {selector : List Filter}
    (h : parseSelector provider v = .ok selector) : ∀ f ∈ selector, f.Compiles := by
  intro f hf
  unfold parseSelector at h
  split at h
  · obtain ⟨g, hg, h⟩ := exists_of_bind_eq_ok h
    cases h
    obtain rfl := List.mem_singleton.mp hf
    exact compiles_of_parseFilter hg
  · obtain ⟨v, -, hv⟩ := exists_of_mem_of_mapM_eq_ok h hf
    exact compiles_of_parseFilter hv
  · exact absurd h (refuseNamed_ne_ok _ _ _)

theorem accepted_of_parse {v : Value} {c : Config} (h : parse v = .ok c) : c.Accepted := by
  obtain ⟨_, _, -, -, -, hnames⟩ := exists_of_parse h
  refine ⟨hnames, fun p hp ↦ ?_⟩
  obtain ⟨index, entries, hfrom, -⟩ := exists_readFrom_of_parse h hp
  exact compiles_of_parseSelector hfrom.selector

/-! ## Loading -/

theorem accepted_empty (source : Option Path) : Accepted { source } :=
  ⟨List.nodup_nil, fun _ hp ↦ nomatch hp⟩

/-- A configuration that could be loaded is accepted. -/
theorem accepted_of_load {e : Environment} {workspace : Option Path} {options : Value} {c : Config}
    (h : load e workspace options = .ok c) : c.Accepted := by
  rcases exists_source_of_load h with hnil | ⟨v, config, -, hconfig, hproviders⟩
  · constructor
    · rw [hnil]
      exact List.nodup_nil
    · rw [hnil]
      exact fun _ hp ↦ nomatch hp
  · have haccepted := accepted_of_parse hconfig
    constructor
    · rw [hproviders]
      exact haccepted.distinct
    · rw [hproviders]
      exact haccepted.compiles

end Config

end CompletionServer
