import RequestFilter.Calendar.ZoneNames
import RequestFilter.Http.Service
import RequestFilter.LogSettings
import RequestFilter.Recipe
import RequestFilter.Settings.Document
import RequestFilter.Proofs.Distinct
import RequestFilter.Proofs.Routes
import RequestFilter.Proofs.JoinTrie
import RequestFilter.Proofs.JoinTrie.Runs
import RequestFilter.Proofs.Evaluation
import RequestFilter.Proofs.Relocation
import RequestFilter.Proofs.Grouping
import RequestFilter.Proofs.Independence
import RequestFilter.Proofs.Conjuncts
import RequestFilter.Proofs.Whitelist
import RequestFilter.Proofs.Renaming
import RequestFilter.Proofs.Reordering
import RequestFilter.Proofs.Rules
import RequestFilter.Proofs.Answers
import RequestFilter.Proofs.Verification
import RequestFilter.Proofs.Skeleton
import RequestFilter.Proofs.ValueIndependence
import RequestFilter.Proofs.Leaves
import RequestFilter.Proofs.Finiteness
import RequestFilter.Proofs.Integers
import RequestFilter.Proofs.Readers
import RequestFilter.Proofs.IntegerCasts
import RequestFilter.Proofs.Typing
import RequestFilter.Proofs.Sql.Token
import RequestFilter.Proofs.Sql.Grammar
import RequestFilter.Proofs.Sql.Unambiguous
import RequestFilter.Proofs.Sql.Rendering
import RequestFilter.Proofs.Sql.ReadBack
import RequestFilter.Proofs.Sql.Numbering
import RequestFilter.Proofs.Fates
import RequestFilter.Proofs.FirstValues
import RequestFilter.Proofs.IdleParameters
import RequestFilter.Proofs.Keys
import RequestFilter.Proofs.Syntaxes
import RequestFilter.Proofs.Like
import RequestFilter.Proofs.Absence
import RequestFilter.Proofs.UsedJoins
import RequestFilter.Proofs.Texts.Digits
import RequestFilter.Proofs.Texts.Numbers
import RequestFilter.Proofs.Texts.Calendar
import RequestFilter.Proofs.Texts.Values
import RequestFilter.Proofs.Segments
import RequestFilter.Proofs.ValueLists
import RequestFilter.Proofs.SortTexts
import RequestFilter.Proofs.Suffixes
import RequestFilter.Proofs.KeySegments
import RequestFilter.Proofs.Instants
import RequestFilter.Proofs.InstantOrdering
import RequestFilter.Proofs.Truth
import RequestFilter.Proofs.Resolution
import RequestFilter.Proofs.LeftmostCuts
import RequestFilter.Proofs.Expansion
import RequestFilter.Proofs.ZoneClocks
import RequestFilter.Proofs.ZonedCasts
import RequestFilter.Proofs.Comparands
import RequestFilter.Proofs.Membership
