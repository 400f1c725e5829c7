import DocScan.Filter.Equality
import DocScan.Filter.JsonForm
import DocScan.Scan
import DocScan.Session
import DocScan.Proofs.AtomicConstraints
import DocScan.Proofs.QueryMerging
import DocScan.Proofs.QueryMeaning
import DocScan.Proofs.ReaderDelivery
import DocScan.Proofs.Stages
import DocScan.Proofs.ConnectionSteps
import DocScan.Proofs.ClientLedger
import DocScan.Proofs.Legibility
import DocScan.Proofs.JsonLegibility
import DocScan.Proofs.ReaderOpening
import DocScan.Proofs.OpeningTrace
import DocScan.Proofs.SessionDelivery
import DocScan.Proofs.ClientAccounting
import DocScan.Proofs.WireRoundTrip
import DocScan.Proofs.QueryContents
import DocScan.Proofs.ReaderLifecycle
import DocScan.Proofs.Refinement
import DocScan.Proofs.FieldAgreement
import DocScan.Proofs.SessionStates
import DocScan.Proofs.Transcripts
import DocScan.Proofs.ScanDraws
import DocScan.Proofs.ScanByHand
import DocScan.Proofs.WireGrammar
import DocScan.Proofs.IdentifierLiteral
import DocScan.Proofs.QueryRefusals
import DocScan.Proofs.ConnectionLedger
import DocScan.Proofs.ClosedReader
import DocScan.Proofs.ClientNumbers
import DocScan.Proofs.OpeningFailures
import DocScan.Proofs.OpeningRetry
import DocScan.Proofs.WireMeaning
import DocScan.Proofs.FaultAddresses
import DocScan.Proofs.QueryOutline
import DocScan.Proofs.LogSecrecy
import DocScan.Proofs.QueryStructure
import DocScan.Proofs.EqualityEntries
import DocScan.Proofs.EqualityConstraints
import DocScan.Proofs.WireNormalForm
import DocScan.Proofs.QueryShape
import DocScan.Proofs.FieldIndependence
import DocScan.Proofs.OpeningOptions
import DocScan.Proofs.IdentifierCoercion
import DocScan.Proofs.TextPatterns
import DocScan.Proofs.JsonIntegers
import DocScan.Proofs.JsonRefusals
import DocScan.Proofs.CheckReports
import DocScan.Proofs.ConfigRefusals
import DocScan.Proofs.ProjectionFields
import DocScan.Proofs.ProjectionEffect
import DocScan.Proofs.CheckResults
import DocScan.Proofs.IndexHints
import DocScan.Proofs.MembershipValues
import DocScan.Proofs.CloseMatches
import DocScan.Proofs.OperatorSpelling
import DocScan.Proofs.ConfigStability
import DocScan.Proofs.ConnectionFailures
