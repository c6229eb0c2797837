import ReactiveView.Renderer.Session
import ReactiveView.Template.Compile
import ReactiveView.Value.Reader
import ReactiveView.Proofs.OrderedMap.Agree
import ReactiveView.Proofs.LiveTree.Links
import ReactiveView.Proofs.LiveTree.Replay
import ReactiveView.Proofs.Reconcile.Convergence
import ReactiveView.Proofs.Scheduling.LostUpdate
import ReactiveView.Proofs.Session.AtRest
import ReactiveView.Proofs.Markup.Entity
import ReactiveView.Proofs.Markup.Scan
import ReactiveView.Proofs.Markup.RoundTrip
import ReactiveView.Proofs.Session.Runs
import ReactiveView.Proofs.Session.SideEffects
import ReactiveView.Proofs.Expr.Printing
import ReactiveView.Proofs.Expr.RoundTrip
import ReactiveView.Proofs.Expr.Resolution
import ReactiveView.Proofs.Template.Mentions
import ReactiveView.Proofs.Reconcile.Containment
import ReactiveView.Proofs.Reconcile.Writing
import ReactiveView.Proofs.Reconcile.Identity
import ReactiveView.Proofs.Session.Coalescing
import ReactiveView.Proofs.Reconcile.Accounting
import ReactiveView.Proofs.Session.Withdrawal
import ReactiveView.Proofs.Template.Unrolling
import ReactiveView.Proofs.Template.Rerender
import ReactiveView.Proofs.Session.Cancellation
import ReactiveView.Proofs.Session.ReadyCallbacks
import ReactiveView.Proofs.Template.Reserved
import ReactiveView.Proofs.Markup.Interpolation
import ReactiveView.Proofs.Style.RoundTrip
import ReactiveView.Proofs.Template.Handlers
import ReactiveView.Proofs.Markup.Grammar
import ReactiveView.Proofs.Template.Markers
import ReactiveView.Proofs.Markup.Nesting
import ReactiveView.Proofs.Expr.Slices
import ReactiveView.Proofs.Template.LoopGrammar
import ReactiveView.Proofs.Template.Attributes
import ReactiveView.Proofs.Template.Failures
import ReactiveView.Proofs.Template.AttributeOrder
import ReactiveView.Proofs.Store.Batches
import ReactiveView.Proofs.Session.Drain
import ReactiveView.Proofs.Value.Encoding
import ReactiveView.Proofs.Registry.Interleaving
import ReactiveView.Proofs.LiveTree.Query
import ReactiveView.Proofs.Expr.Progress
import ReactiveView.Proofs.Markup.Progress
