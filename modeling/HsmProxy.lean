import HsmProxy.Interleaving.Program
import HsmProxy.Interleaving.System
import HsmProxy.Interleaving.Sound
import HsmProxy.Interleaving.Logs
import HsmProxy.Wire.Messages
import HsmProxy.Pkcs11.Errors
import HsmProxy.Pkcs11.Job
import HsmProxy.Resilience.Breaker
import HsmProxy.Resilience.BreakerCalls
import HsmProxy.Resilience.BreakerThreads
import HsmProxy.Cache.PublicKeyCache
import HsmProxy.Pkcs11.Pool
import HsmProxy.Pkcs11.Token
import HsmProxy.Authz.Policy
import HsmProxy.Authz.Identity
import HsmProxy.Resilience.RateLimiter
import HsmProxy.Crypto.Prepare
import HsmProxy.Service.Interface
import HsmProxy.Crypto.PublicKey
import HsmProxy.Pkcs11.Worker
import HsmProxy.Grpc.Pooled
import HsmProxy.Grpc.Single
import HsmProxy.Service.System
import HsmProxy.Grpc.Plan
import HsmProxy.Grpc.ErrorClass
import HsmProxy.Pkcs11.WorkerSteps
import HsmProxy.Pkcs11.PoolSteps
import HsmProxy.Service.Steps
import HsmProxy.Pkcs11.HandleCache
import HsmProxy.Pkcs11.Recovery
import HsmProxy.Pkcs11.PoolAccounting
import HsmProxy.Pkcs11.Delivery
import HsmProxy.Grpc.FailureCount
import HsmProxy.Service.Main
import HsmProxy.Cache.CacheSteps
import HsmProxy.Cache.KeyOrigin
import HsmProxy.Grpc.Admission
import HsmProxy.Grpc.AdmissionCounters
import HsmProxy.Service.CrossTalk
import HsmProxy.Service.Modes
import HsmProxy.Crypto.Agreement
import HsmProxy.Pkcs11.Waiting
import HsmProxy.Authz.PolicyMeaning
import HsmProxy.Resilience.BreakerTrips
import HsmProxy.Pkcs11.Serving
import HsmProxy.Pkcs11.Start
import HsmProxy.Pkcs11.StartVerdict
import HsmProxy.Grpc.MalformedVerify
import HsmProxy.Cache.ServedFromCache
import HsmProxy.Metering.TokenBucket
import HsmProxy.Resilience.RateLimiterCalls
import HsmProxy.Pkcs11.Login
import HsmProxy.Pkcs11.Leaving
import HsmProxy.Pkcs11.Drain
import HsmProxy.Grpc.Health
import HsmProxy.Grpc.ProbeEvidence
import HsmProxy.Pkcs11.ObjectStore
import HsmProxy.Cache.KeyLoad
import HsmProxy.Cache.Rotation
import HsmProxy.Collections.Selection
import HsmProxy.Crypto.DigestRecovery
import HsmProxy.Crypto.EcPoint
import HsmProxy.Numeric.Binary64
import HsmProxy.Results.Record
import HsmProxy.Results.Report
import HsmProxy.Results.Sweep
import HsmProxy.Collections.Quantile
import HsmProxy.Results.Overload
import HsmProxy.Interleaving.Serial
import HsmProxy.Interleaving.Progress
import HsmProxy.Service.Serial
import HsmProxy.Service.Backends
import HsmProxy.Service.Causes
import HsmProxy.Pkcs11.Vault
import HsmProxy.Service.RoundTrip
import HsmProxy.Service.SingleFlight
import HsmProxy.Service.Progress
import HsmProxy.Pkcs11.Sessions
import HsmProxy.Telemetry.Sampler
import HsmProxy.Pkcs11.SetupTools
import HsmProxy.Pkcs11.Provisioning
import HsmProxy.Pkcs11.SetupOrder
import HsmProxy.Pkcs11.TokenCheck
import HsmProxy.Baseline.SignsApart
import HsmProxy.Ceiling.Barrier
